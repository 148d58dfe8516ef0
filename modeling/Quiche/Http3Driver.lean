import Mathlib.Logic.Function.Basic
import Quiche.H3

namespace Quiche.Http3Driver

/-- `h3::Priority` -/
structure Priority where
  urgency : Nat
  incremental : Bool
deriving DecidableEq

def defaultPrio : Priority := ⟨3, true⟩

def messageError : Nat := 0x10E

inductive Shutdown where
  | read
  | write

inductive OutboundFrame (Header : Type) where
  | headers (headers : List Header) (priority : Option Priority)
  | body (body : List UInt8) (fin : Bool)
  | datagram
  | peerStreamError
  | flowShutdown
deriving DecidableEq

structure InboundFrame where
  body : List UInt8
  fin : Bool
deriving DecidableEq

structure Http3 (Conn Header : Type) where
  recvBody : Conn → Nat → Conn × Except H3.Error (List UInt8)
  streamReadable : Conn → Nat → Bool
  streamFinished : Conn → Nat → Bool
  streamShutdown : Conn → Nat → Shutdown → Nat → Conn
  sendResponseWithPriority : Conn → Nat → List Header → Priority → Conn × Except H3.Error Unit
  sendAdditionalHeadersWithPriority : Conn → Nat → List Header → Priority → Conn × Except H3.Error Unit
  sendBody : Conn → Nat → List UInt8 → Bool → Conn × Except H3.Error Nat
  sendRequest : Conn → List Header → Bool → Conn × Except H3.Error Nat
  peerSettingsRaw : Conn → Option (List (Nat × Nat))
  close : Conn → Conn
  extractFlowId : Nat → List Header → Option Nat

/-- A bounded channel. `received` is what was taken out of it so far. The sending side is gone
unless `sending`, and the receiver was closed or dropped if `closed`. -/
structure Channel (Frame : Type) where
  capacity : Nat
  queue : List Frame
  received : List Frame
  sending : Bool
  closed : Bool

namespace Channel

variable {Frame : Type}

def new (capacity : Nat) : Channel Frame := ⟨capacity, [], [], true, false⟩

def send (channel : Channel Frame) (frame : Frame) : Channel Frame :=
  { channel with queue := channel.queue ++ [frame] }

def recv (channel : Channel Frame) : Channel Frame :=
  { channel with queue := channel.queue.tail, received := channel.received ++ channel.queue.head?.toList }

/-- All frames but those of `queue` are received, and the receiver is `kept` or dropped. -/
def recvUntil (channel : Channel Frame) (queue : List Frame) (kept : Bool) : Channel Frame :=
  { channel with
    queue
    received := channel.received ++ channel.queue.take (channel.queue.length - queue.length)
    closed := channel.closed || !kept }

def close (channel : Channel Frame) : Channel Frame := { channel with closed := true }

def dropSender (channel : Channel Frame) : Channel Frame := { channel with sending := false }

def sent (channel : Channel Frame) : List Frame := channel.received ++ channel.queue

end Channel

/-- `send` and `recv` name channels. What only logs and statistics read is left out; `streamId`
is that of `audit_stats`. -/
structure StreamCtx (Header : Type) where
  streamId : Nat
  send : Option Nat
  recv : Option Nat
  queuedFrame : Option (OutboundFrame Header)
  initialHeadersSent : Bool
  finRecv : Bool
  finSent : Bool
  associatedDgramFlowId : Option Nat

namespace StreamCtx

/-- `new`, with the channels of the number `link`. -/
def new {Header : Type} (streamId link : Nat) : StreamCtx Header where
  streamId := streamId
  send := some link
  recv := some link
  queuedFrame := none
  initialHeadersSent := false
  finRecv := false
  finSent := false
  associatedDgramFlowId := none

end StreamCtx

inductive WaitForStream where
  | downstream (streamId chan : Nat)
  | upstream (streamId chan : Nat)
deriving DecidableEq

/-- `H3Event`, and what the two kinds of driver add to it. -/
inductive Event where
  | incomingSettings (settings : List (Nat × Nat))
  | incomingHeaders (streamId link : Nat) (readFin : Bool)
  | newFlow (flowId : Nat)
  | resetStream (streamId : Nat)
  | bodyBytesReceived (streamId numBytes : Nat) (fin : Bool)
  | streamClosed (streamId : Nat)
  | newOutboundRequest (streamId requestId : Nat)
deriving DecidableEq

/-- The events of `h3::Connection::poll`. -/
inductive H3Event (Header : Type) where
  | headers (list : List Header) (moreFrames : Bool)
  | data
  | finished
  | reset (code : Nat)
  | priorityUpdate
  | goAway

inductive H3ConnectionError where
  | controllerWentAway
  | h3 (error : H3.Error)
  | goAway
  | nonexistentStream
deriving DecidableEq

/-- The state of `ServerHooks`, and of `ClientHooks`, of which a pending request is the number
of its channels. The post-accept timeout is left out. -/
inductive Hooks where
  | server (requests : Nat) (maxRequestsPerConnection : Option Nat)
  | client (pendingRequests : Nat → Option Nat)

/-- The driver of an established connection. `streamCapacity` is the capacity of a stream's
channels, and channels from `nextLink` on are unused. -/
structure H3Driver (Conn Header : Type) where
  conn : Conn
  hooks : Hooks
  h3EventSender : List Event
  controllerListens : Bool
  streamMap : Nat → Option (StreamCtx Header)
  flowMap : Nat → Bool
  waitingStreams : List WaitForStream
  settingsReceivedAndForwarded : Bool
  streamCapacity : Nat
  outbound : Nat → Channel (OutboundFrame Header)
  inbound : Nat → Channel InboundFrame
  nextLink : Nat

namespace H3Driver

variable {Conn Header : Type}

/-- `new`, once the connection is established. -/
def new (conn : Conn) (hooks : Hooks) (streamCapacity : Nat) : H3Driver Conn Header where
  conn := conn
  hooks := hooks
  h3EventSender := []
  controllerListens := true
  streamMap _ := none
  flowMap _ := false
  waitingStreams := []
  settingsReceivedAndForwarded := false
  streamCapacity := streamCapacity
  outbound _ := .new streamCapacity
  inbound _ := .new streamCapacity
  nextLink := 0

def isServer (driver : H3Driver Conn Header) : Bool :=
  match driver.hooks with
  | .server .. => true
  | .client _ => false

def notify (driver : H3Driver Conn Header) (event : Event) : H3Driver Conn Header :=
  if driver.controllerListens then { driver with h3EventSender := driver.h3EventSender ++ [event] } else driver

abbrev Result (Conn Header : Type) := H3Driver Conn Header × Except H3ConnectionError Unit

def sendEvent (driver : H3Driver Conn Header) (event : Event) : Result Conn Header :=
  (driver.notify event, if driver.controllerListens then .ok () else .error .controllerWentAway)

def setStream (driver : H3Driver Conn Header) (streamId : Nat) (ctx : Option (StreamCtx Header)) :
    H3Driver Conn Header :=
  { driver with streamMap := Function.update driver.streamMap streamId ctx }

def updateOutbound (driver : H3Driver Conn Header) (link : Nat)
    (change : Channel (OutboundFrame Header) → Channel (OutboundFrame Header)) : H3Driver Conn Header :=
  { driver with outbound := Function.update driver.outbound link (change (driver.outbound link)) }

def updateInbound (driver : H3Driver Conn Header) (link : Nat) (change : Channel InboundFrame → Channel InboundFrame) :
    H3Driver Conn Header :=
  { driver with inbound := Function.update driver.inbound link (change (driver.inbound link)) }

def closePending (streamId : Nat) (driver : H3Driver Conn Header) : WaitForStream → H3Driver Conn Header
  | .downstream id chan => if id = streamId then driver.updateOutbound chan .close else driver
  | .upstream id chan => if id = streamId then driver.updateInbound chan .dropSender else driver

/-- The ends of the channels that a context holds are dropped with it. -/
def dropCtx (driver : H3Driver Conn Header) (ctx : StreamCtx Header) : H3Driver Conn Header :=
  let driver := (ctx.recv.map fun link => driver.updateOutbound link .close).getD driver
  (ctx.send.map fun link => driver.updateInbound link .dropSender).getD driver

def finishStream (http3 : Http3 Conn Header) (driver : H3Driver Conn Header) (streamId : Nat)
    (read write : Option Nat) : H3Driver Conn Header :=
  match driver.streamMap streamId with
  | none => driver
  | some ctx =>
    let driver := (driver.setStream streamId none).dropCtx ctx
    let conn := (read.map fun err => http3.streamShutdown driver.conn streamId .read err).getD driver.conn
    let conn := (write.map fun err => http3.streamShutdown conn streamId .write err).getD conn
    -- Find if the stream also has any pending futures associated with it.
    let driver := driver.waitingStreams.foldl (closePending streamId) { driver with conn }
    let driver := match ctx.associatedDgramFlowId with
      | some flowId => { driver with flowMap := Function.update driver.flowMap flowId false }
      | none => driver
    if driver.isServer then driver.notify (.streamClosed streamId) else driver

section Reads

inductive StreamStatus where
  | done (close : Bool)
  | blocked

/-- What the loop of `process_h3_data` changes. -/
structure Reading (Conn : Type) where
  conn : Conn
  channel : Channel InboundFrame
  events : List Event
  status : StreamStatus

/-- The loop of `process_h3_data` with a sender that is there; the channel has room for `slots` frames. -/
def readLoop (http3 : Http3 Conn Header) (ctx : StreamCtx Header) (streamId : Nat) :
    Nat → Conn → Channel InboundFrame → List Event → Reading Conn
  | slots, conn, channel, events =>
    if channel.closed then ⟨conn, channel, events, .done (ctx.finSent && ctx.finRecv)⟩
    else match slots with
      | 0 =>
        if ctx.finRecv || http3.streamReadable conn streamId then ⟨conn, channel, events, .blocked⟩
        else ⟨conn, channel, events, .done false⟩
      | slots + 1 =>
        -- Signal end-of-body to upstream.
        if ctx.finRecv then ⟨conn, channel.send ⟨[], true⟩, events, .done ctx.finSent⟩
        else match http3.recvBody conn streamId with
          | (conn, .ok body) =>
            readLoop http3 ctx streamId slots conn (channel.send ⟨body, false⟩)
              (events ++ [.bodyBytesReceived streamId body.length false])
          | (conn, .error .done) => ⟨conn, channel, events, .done false⟩
          | (conn, .error _) => ⟨conn, channel, events, .done true⟩

def sender (driver : H3Driver Conn Header) (ctx : StreamCtx Header) : Option Nat :=
  ctx.send.filter fun link => (driver.inbound link).sending

/-- The loop of `process_h3_data`. -/
def readStream (http3 : Http3 Conn Header) (driver : H3Driver Conn Header) (ctx : StreamCtx Header) (streamId : Nat) :
    H3Driver Conn Header × StreamStatus :=
  match driver.sender ctx with
  -- Already waiting for capacity.
  | none => (driver, .done false)
  | some link =>
    let channel := driver.inbound link
    let reading := readLoop http3 ctx streamId (channel.capacity - channel.queue.length) driver.conn channel []
    let driver := reading.events.foldl notify (driver.updateInbound link fun _ => reading.channel)
    ({ driver with conn := reading.conn }, reading.status)

/-- `process_h3_data`, where `finish` stands for the call of `process_h3_fin`. -/
def processH3DataThen (http3 : Http3 Conn Header) (finish : H3Driver Conn Header → Result Conn Header)
    (driver : H3Driver Conn Header) (streamId : Nat) : Result Conn Header :=
  match driver.streamMap streamId with
  | none => (driver, .error .nonexistentStream)
  | some ctx =>
    match driver.readStream http3 ctx streamId with
    | (driver, .done true) => (driver.finishStream http3 streamId none none, .ok ())
    | (driver, .done false) =>
      -- The QUIC stream is finished, in case `h3::poll()` is never called again.
      if !ctx.finRecv && http3.streamFinished driver.conn streamId then finish driver else (driver, .ok ())
    | (driver, .blocked) =>
      let pending := ctx.send.map fun chan => WaitForStream.upstream streamId chan
      ({ driver.setStream streamId (some { ctx with send := none }) with
          waitingStreams := driver.waitingStreams ++ pending.toList }, .ok ())

/-- Since `fin_recv` is true, there can't be a recursive loop. -/
def processH3Fin (http3 : Http3 Conn Header) (driver : H3Driver Conn Header) (streamId : Nat) : Result Conn Header :=
  match (driver.streamMap streamId).filter fun ctx => !ctx.finRecv with
  -- Stream is already finished, nothing to do.
  | none => (driver, .ok ())
  | some ctx =>
    ((driver.setStream streamId (some { ctx with finRecv := true })).notify
      (.bodyBytesReceived streamId 0 true)).processH3DataThen http3 (fun driver => (driver, .ok ())) streamId

def processH3Data (http3 : Http3 Conn Header) (driver : H3Driver Conn Header) (streamId : Nat) : Result Conn Header :=
  driver.processH3DataThen http3 (fun driver => driver.processH3Fin http3 streamId) streamId

end Reads

section Requests

def getOrInsertFlow (driver : H3Driver Conn Header) (flowId : Nat) : Result Conn Header :=
  if driver.flowMap flowId then (driver, .ok ())
  else match driver.sendEvent (.newFlow flowId) with
    | (driver, .ok ()) => ({ driver with flowMap := Function.update driver.flowMap flowId true }, .ok ())
    | result => result

/-- `StreamCtx::new`, with new channels. -/
def newStreamCtx (driver : H3Driver Conn Header) (streamId : Nat) : H3Driver Conn Header × StreamCtx Header :=
  ({ driver with
      outbound := Function.update driver.outbound driver.nextLink (.new driver.streamCapacity)
      inbound := Function.update driver.inbound driver.nextLink (.new driver.streamCapacity)
      nextLink := driver.nextLink + 1 },
    .new streamId driver.nextLink)

def openFlow (http3 : Http3 Conn Header) (driver : H3Driver Conn Header) (ctx : StreamCtx Header)
    (headers : List Header) : Result Conn Header × StreamCtx Header :=
  match http3.extractFlowId ctx.streamId headers with
  | some flowId => (driver.getOrInsertFlow flowId, { ctx with associatedDgramFlowId := some flowId })
  | none => ((driver, .ok ()), ctx)

/-- `insert_stream` of a context whose receiver was moved to a future. -/
def insertWaiting (driver : H3Driver Conn Header) (ctx : StreamCtx Header) : H3Driver Conn Header :=
  let pending := ctx.recv.map fun chan => WaitForStream.downstream ctx.streamId chan
  { driver.setStream ctx.streamId (some { ctx with recv := none }) with
    waitingStreams := driver.waitingStreams ++ pending.toList }

/-- `ServerHooks::handle_request` -/
def handleRequest (http3 : Http3 Conn Header) (driver : H3Driver Conn Header) (streamId : Nat) (headers : List Header)
    (hasBody : Bool) : Result Conn Header :=
  -- For now ignore any additional HEADERS (e.g. "trailers").
  if (driver.streamMap streamId).isSome then (driver, .ok ())
  else
    let (driver, ctx) := driver.newStreamCtx streamId
    match driver.openFlow http3 ctx headers with
    | ((driver, .error error), _) => (driver, .error error)
    | ((driver, .ok ()), ctx) =>
      match (driver.insertWaiting ctx).sendEvent (.incomingHeaders streamId (ctx.send.getD 0) (!hasBody)) with
      | (driver, .error error) => (driver, .error error)
      | (driver, .ok ()) =>
        match driver.hooks with
        | .server requests limit => ({ driver with hooks := .server (requests + 1) limit }, .ok ())
        | .client _ => (driver, .ok ())

/-- `DriverHooks::headers_received` of the server, and of the client with `handle_response`. -/
def headersReceived (http3 : Http3 Conn Header) (driver : H3Driver Conn Header) (streamId : Nat)
    (headers : List Header) (hasBody : Bool) : Result Conn Header :=
  match driver.hooks with
  | .server requests limit =>
    if limit.any fun limit => limit ≤ requests then ({ driver with conn := http3.close driver.conn }, .ok ())
    else driver.handleRequest http3 streamId headers hasBody
  | .client pendingRequests =>
    match pendingRequests streamId with
    | none => (driver, .ok ())
    | some link =>
      let driver := { driver with hooks := .client (Function.update pendingRequests streamId none) }
      match driver.streamMap streamId with
      | none => (driver, .error .nonexistentStream)
      | some _ => driver.sendEvent (.incomingHeaders streamId link (!hasBody))

def forwardSettings (http3 : Http3 Conn Header) (driver : H3Driver Conn Header) : Result Conn Header :=
  if driver.settingsReceivedAndForwarded then (driver, .ok ())
  else match http3.peerSettingsRaw driver.conn with
    | none => (driver, .ok ())
    | some settings =>
      match driver.sendEvent (.incomingSettings settings) with
      | (driver, .ok ()) => ({ driver with settingsReceivedAndForwarded := true }, .ok ())
      | result => result

def processReadEvent (http3 : Http3 Conn Header) (driver : H3Driver Conn Header) (streamId : Nat)
    (event : H3Event Header) : Result Conn Header :=
  match driver.forwardSettings http3 with
  | (driver, .error error) => (driver, .error error)
  | (driver, .ok ()) =>
    match event with
    | .headers list moreFrames => driver.headersReceived http3 streamId list moreFrames
    | .data => driver.processH3Data http3 streamId
    | .finished => driver.processH3Fin http3 streamId
    | .reset _ =>
      match driver.sendEvent (.resetStream streamId) with
      | (driver, .error error) => (driver, .error error)
      | (driver, .ok ()) => (driver.finishStream http3 streamId none none, .ok ())
    | .priorityUpdate => (driver, .ok ())
    | .goAway => (driver, .error .goAway)

end Requests

section Writes

/-- `none` is a panic: only flows send such frames. -/
def processWriteFrame (http3 : Http3 Conn Header) (conn : Conn) (ctx : StreamCtx Header) :
    Option (Conn × StreamCtx Header × Except H3.Error Unit) :=
  match ctx.queuedFrame with
  | none => some (conn, ctx, .ok ())
  | some (.headers headers priority) =>
    let prio := priority.getD defaultPrio
    if ctx.initialHeadersSent then
      let (conn, res) := http3.sendAdditionalHeadersWithPriority conn ctx.streamId headers prio
      some (conn, ctx, res)
    else
      match http3.sendResponseWithPriority conn ctx.streamId headers prio with
      | (conn, .ok ()) => some (conn, { ctx with initialHeadersSent := true }, .ok ())
      | (conn, .error error) => some (conn, ctx, .error error)
  | some (.body body fin) =>
    -- quiche doesn't allow sending an empty body when the fin flag is not set.
    if body.length = 0 ∧ fin = false then some (conn, ctx, .ok ())
    else
      -- If this is the last body frame, drop the receiver.
      let ctx := if fin then { ctx with recv := none } else ctx
      match http3.sendBody conn ctx.streamId body fin with
      | (conn, .error error) => some (conn, ctx, .error error)
      | (conn, .ok n) =>
        if n ≠ body.length then
          some (conn, { ctx with queuedFrame := some (.body (body.drop n) fin) }, .error .streamBlocked)
        else if fin then
          some (conn, { ctx with finSent := true }, if ctx.finRecv then .error (.transportError .done) else .ok ())
        else some (conn, ctx, .ok ())
  | some .peerStreamError => some (conn, ctx, .error .messageError)
  | some .flowShutdown => none
  | some .datagram => none

inductive WriteStatus where
  | idle
  | waits
  | finish (streamId : Nat) (read write : Option Nat)

/-- What the loop of `process_writable_stream` changes, and the frames that it leaves in the channel. -/
structure Writing (Conn Header : Type) where
  conn : Conn
  ctx : StreamCtx Header
  queue : List (OutboundFrame Header)
  status : WriteStatus

/-- The loop of `process_writable_stream`; `closed` says that no frame will come once the queue is empty. -/
def writeLoop (http3 : Http3 Conn Header) (streamId : Nat) (closed : Bool) (conn : Conn) (ctx : StreamCtx Header)
    (queue : List (OutboundFrame Header)) : Option (Writing Conn Header) :=
  match processWriteFrame http3 conn ctx with
  | none => none
  | some (conn, ctx, .error .streamBlocked) => some ⟨conn, ctx, queue, .idle⟩
  | some (conn, ctx, .error .done) => some ⟨conn, ctx, queue, .idle⟩
  | some (conn, ctx, .error .messageError) =>
    some ⟨conn, ctx, queue, .finish streamId (some messageError) (some messageError)⟩
  | some (conn, ctx, .error (.transportError (.streamStopped e))) =>
    some ⟨conn, ctx, queue, .finish streamId (some e) none⟩
  | some (conn, ctx, .error (.transportError (.invalidStreamState stream))) =>
    some ⟨conn, ctx, queue, .finish stream none none⟩
  | some (conn, ctx, .error _) => some ⟨conn, ctx, queue, .finish streamId none none⟩
  | some (conn, ctx, .ok ()) =>
    let ctx := { ctx with queuedFrame := none }
    match ctx.recv, queue with
    -- Already waiting for data, or we wrote a fin and closed the channel.
    | none, _ => some ⟨conn, ctx, queue, .idle⟩
    | some _, frame :: rest => writeLoop http3 streamId closed conn { ctx with queuedFrame := some frame } rest
    | some _, [] => some ⟨conn, ctx, [], if closed then .idle else .waits⟩

def processWritableStream (http3 : Http3 Conn Header) (driver : H3Driver Conn Header) (streamId : Nat) :
    Option (H3Driver Conn Header) :=
  match driver.streamMap streamId with
  | none => some driver
  | some ctx =>
    let channel := ctx.recv.map driver.outbound
    let queue := (channel.map (·.queue)).getD []
    let closed := channel.any fun channel => !channel.sending || channel.closed
    match writeLoop http3 streamId closed driver.conn ctx queue with
    | none => none
    | some writing =>
      let driver := match ctx.recv with
        | some link => driver.updateOutbound link fun channel =>
          channel.recvUntil writing.queue writing.ctx.recv.isSome
        | none => driver
      let driver := { driver.setStream streamId (some writing.ctx) with conn := writing.conn }
      match writing.status with
      | .idle => some driver
      | .waits =>
        let pending := writing.ctx.recv.map fun chan => WaitForStream.downstream streamId chan
        some { driver.setStream streamId (some { writing.ctx with recv := none }) with
          waitingStreams := driver.waitingStreams ++ pending.toList }
      | .finish stream read write => some (driver.finishStream http3 stream read write)

end Writes

section Ready

def isReady (driver : H3Driver Conn Header) : WaitForStream → Bool
  | .downstream _ chan =>
    let channel := driver.outbound chan
    !channel.queue.isEmpty || !channel.sending || channel.closed
  | .upstream _ chan =>
    let channel := driver.inbound chan
    decide (channel.queue.length < channel.capacity) || !channel.sending || channel.closed

/-- `upstream_read_ready`; the future has received the first frame. -/
def upstreamReadReady (http3 : Http3 Conn Header) (driver : H3Driver Conn Header) (streamId chan : Nat) :
    Option (H3Driver Conn Header) :=
  let data := (driver.outbound chan).queue.head?
  let driver := driver.updateOutbound chan .recv
  match driver.streamMap streamId with
  | none => some (driver.updateOutbound chan .close)
  | some stream =>
    (driver.setStream streamId (some { stream with recv := some chan, queuedFrame := data })).processWritableStream
      http3 streamId

def upstreamWriteReady (http3 : Http3 Conn Header) (driver : H3Driver Conn Header) (streamId chan : Nat) :
    Result Conn Header :=
  match driver.streamMap streamId with
  | none => (driver.updateInbound chan .dropSender, .ok ())
  | some stream => (driver.setStream streamId (some { stream with send := some chan })).processH3Data http3 streamId

/-- A future is taken out of `waiting_streams`. -/
def upstreamReady (http3 : Http3 Conn Header) (driver : H3Driver Conn Header) (index : Nat) :
    Option (Result Conn Header) :=
  match driver.waitingStreams[index]? with
  | none => some (driver, .ok ())
  | some ready =>
    if driver.isReady ready then
      let driver := { driver with waitingStreams := driver.waitingStreams.eraseIdx index }
      match ready with
      | .downstream streamId chan => (driver.upstreamReadReady http3 streamId chan).map fun driver => (driver, .ok ())
      | .upstream streamId chan => some (driver.upstreamWriteReady http3 streamId chan)
    else some (driver, .ok ())

end Ready

variable {Conn Header : Type} {driver middle next : H3Driver Conn Header} {http3 : Http3 Conn Header}

/-- Only channels are closed, on the side of the driver. -/
structure Closes (driver next : H3Driver Conn Header) : Prop where
  conn : next.conn = driver.conn
  hooks : next.hooks = driver.hooks
  events : next.h3EventSender = driver.h3EventSender
  listens : next.controllerListens = driver.controllerListens
  streams : next.streamMap = driver.streamMap
  waiting : next.waitingStreams = driver.waitingStreams
  outbound : ∀ link, (next.outbound link).queue = (driver.outbound link).queue ∧
    (next.outbound link).received = (driver.outbound link).received
  inbound : ∀ link, (next.inbound link).queue = (driver.inbound link).queue ∧
    (next.inbound link).received = (driver.inbound link).received ∧
      (next.inbound link).closed = (driver.inbound link).closed

theorem closes_refl (driver : H3Driver Conn Header) : driver.Closes driver :=
  ⟨rfl, rfl, rfl, rfl, rfl, rfl, fun _ => ⟨rfl, rfl⟩, fun _ => ⟨rfl, rfl, rfl⟩⟩

theorem Closes.trans (first : driver.Closes middle) (second : middle.Closes next) : driver.Closes next where
  conn := second.conn.trans first.conn
  hooks := second.hooks.trans first.hooks
  events := second.events.trans first.events
  listens := second.listens.trans first.listens
  streams := second.streams.trans first.streams
  waiting := second.waiting.trans first.waiting
  outbound link := ⟨(second.outbound link).1.trans (first.outbound link).1,
    (second.outbound link).2.trans (first.outbound link).2⟩
  inbound link := ⟨(second.inbound link).1.trans (first.inbound link).1,
    (second.inbound link).2.1.trans (first.inbound link).2.1, (second.inbound link).2.2.trans (first.inbound link).2.2⟩

theorem closes_outbound (driver : H3Driver Conn Header) (link : Nat) :
    driver.Closes (driver.updateOutbound link .close) := by
  refine ⟨rfl, rfl, rfl, rfl, rfl, rfl, fun other => ?_, fun _ => ⟨rfl, rfl, rfl⟩⟩
  by_cases same : other = link
  · subst same
    simp only [updateOutbound, Function.update_self]
    exact ⟨rfl, rfl⟩
  · simp only [updateOutbound, Function.update_of_ne same, and_self]

theorem closes_inbound (driver : H3Driver Conn Header) (link : Nat) :
    driver.Closes (driver.updateInbound link .dropSender) := by
  refine ⟨rfl, rfl, rfl, rfl, rfl, rfl, fun _ => ⟨rfl, rfl⟩, fun other => ?_⟩
  by_cases same : other = link
  · subst same
    simp only [updateInbound, Function.update_self]
    exact ⟨rfl, rfl, rfl⟩
  · simp only [updateInbound, Function.update_of_ne same, and_self]

theorem closePending_closes (streamId : Nat) (driver : H3Driver Conn Header) (pending : WaitForStream) :
    driver.Closes (closePending streamId driver pending) := by
  cases pending with
  | downstream id chan =>
    rw [closePending]
    split
    · exact closes_outbound driver chan
    · exact closes_refl driver
  | upstream id chan =>
    rw [closePending]
    split
    · exact closes_inbound driver chan
    · exact closes_refl driver

theorem closePendings_closes (streamId : Nat) (waiting : List WaitForStream) (driver : H3Driver Conn Header) :
    driver.Closes (waiting.foldl (closePending streamId) driver) := by
  induction waiting generalizing driver with
  | nil => exact closes_refl driver
  | cons pending rest ih => exact (closePending_closes streamId driver pending).trans (ih _)

theorem dropCtx_closes (driver : H3Driver Conn Header) (ctx : StreamCtx Header) : driver.Closes (driver.dropCtx ctx) := by
  have first : driver.Closes ((ctx.recv.map fun link => driver.updateOutbound link .close).getD driver) := by
    cases ctx.recv with
    | none => exact closes_refl driver
    | some link => exact closes_outbound driver link
  refine first.trans ?_
  rw [dropCtx]
  cases ctx.send with
  | none => exact closes_refl _
  | some link => exact closes_inbound _ link

/-- The connection after the calls of `stream_shutdown`. -/
def shutdowns (http3 : Http3 Conn Header) (conn : Conn) (streamId : Nat) (read write : Option Nat) : Conn :=
  let conn := (read.map fun err => http3.streamShutdown conn streamId .read err).getD conn
  (write.map fun err => http3.streamShutdown conn streamId .write err).getD conn

/-- The stream is shut down and forgotten, and a server reports it as closed. -/
structure Finishes (http3 : Http3 Conn Header) (driver : H3Driver Conn Header) (streamId : Nat) (read write : Option Nat)
    (next : H3Driver Conn Header) : Prop where
  conn : next.conn = shutdowns http3 driver.conn streamId read write
  hooks : next.hooks = driver.hooks
  events : next.h3EventSender = driver.h3EventSender ++
    if driver.isServer && driver.controllerListens then [.streamClosed streamId] else []
  listens : next.controllerListens = driver.controllerListens
  streams : next.streamMap = Function.update driver.streamMap streamId none
  waiting : next.waitingStreams = driver.waitingStreams
  outbound : ∀ link, (next.outbound link).queue = (driver.outbound link).queue ∧
    (next.outbound link).received = (driver.outbound link).received
  inbound : ∀ link, (next.inbound link).queue = (driver.inbound link).queue ∧
    (next.inbound link).received = (driver.inbound link).received ∧
      (next.inbound link).closed = (driver.inbound link).closed

theorem finishStream_none {streamId : Nat} (absent : driver.streamMap streamId = none) (read write : Option Nat) :
    driver.finishStream http3 streamId read write = driver := by
  rw [finishStream, absent]

theorem finishStream_some {streamId : Nat} {ctx : StreamCtx Header} (present : driver.streamMap streamId = some ctx)
    (read write : Option Nat) :
    Finishes http3 driver streamId read write (driver.finishStream http3 streamId read write) := by
  have dropped := dropCtx_closes (driver.setStream streamId none) ctx
  have returned : driver.finishStream http3 streamId read write =
      let one := (driver.setStream streamId none).dropCtx ctx
      let two := one.waitingStreams.foldl (closePending streamId)
        { one with conn := shutdowns http3 one.conn streamId read write }
      let three := match ctx.associatedDgramFlowId with
        | some flowId => { two with flowMap := Function.update two.flowMap flowId false }
        | none => two
      if three.isServer then three.notify (.streamClosed streamId) else three := by
    rw [finishStream, present]
    rfl
  rw [returned]
  generalize (driver.setStream streamId none).dropCtx ctx = one at dropped
  have closed := closePendings_closes streamId one.waitingStreams
    { one with conn := shutdowns http3 one.conn streamId read write }
  dsimp only
  generalize List.foldl (closePending streamId) _ one.waitingStreams = two at closed
  have same : ∃ flowMap, (match ctx.associatedDgramFlowId with
      | some flowId => { two with flowMap := Function.update two.flowMap flowId false }
      | none => two) = { two with flowMap } := by
    cases ctx.associatedDgramFlowId with
    | some flowId => exact ⟨_, rfl⟩
    | none => exact ⟨two.flowMap, rfl⟩
  obtain ⟨flowMap, is⟩ := same
  rw [is]
  have hooks : two.hooks = driver.hooks := closed.hooks.trans dropped.hooks
  have listens : two.controllerListens = driver.controllerListens := closed.listens.trans dropped.listens
  have events : two.h3EventSender = driver.h3EventSender := closed.events.trans dropped.events
  have kept : Finishes http3 driver streamId read write { two with
      flowMap, h3EventSender := driver.h3EventSender ++
        if driver.isServer && driver.controllerListens then [.streamClosed streamId] else [] } := by
    refine ⟨?_, hooks, rfl, listens, closed.streams.trans dropped.streams, closed.waiting.trans dropped.waiting,
      fun link => ?_, fun link => ?_⟩
    · rw [closed.conn, dropped.conn]
      rfl
    · exact ⟨(closed.outbound link).1.trans (dropped.outbound link).1,
        (closed.outbound link).2.trans (dropped.outbound link).2⟩
    · exact ⟨(closed.inbound link).1.trans (dropped.inbound link).1,
        (closed.inbound link).2.1.trans (dropped.inbound link).2.1,
        (closed.inbound link).2.2.trans (dropped.inbound link).2.2⟩
  have server : { two with flowMap }.isServer = driver.isServer := by
    rw [isServer, isServer, hooks]
  have last : (if { two with flowMap }.isServer then { two with flowMap }.notify (.streamClosed streamId)
      else { two with flowMap }) = { two with
        flowMap, h3EventSender := driver.h3EventSender ++
          if driver.isServer && driver.controllerListens then [.streamClosed streamId] else [] } := by
    rw [server, notify, ← events]
    dsimp only
    rw [listens]
    cases driver.isServer with
    | false => simp
    | true =>
      cases driver.controllerListens with
      | false => simp
      | true => rfl
  rw [last]
  exact kept

end H3Driver

end Quiche.Http3Driver
