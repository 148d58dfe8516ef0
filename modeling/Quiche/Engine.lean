import Mathlib.Data.List.AList
import Quiche.Stream.RecvBuf.Reassembly

namespace Quiche

open Data

def maxWriteDataSize : Nat := 65536

def batchSize : Nat := 32

/-- The size of `temp_buf` in `readFromQuicheToBuffer`. -/
def tempBufSize : Nat := 65536

inductive Command where
  | write (streamId : Nat) (data : List UInt8) (fin : Bool)
  | close (errorCode : Nat) (reason : List UInt8)
  | stop
deriving DecidableEq

structure StreamReadBuffer where
  data : List UInt8
  readOffset : Nat
  finReceived : Bool
deriving DecidableEq

namespace StreamReadBuffer

def new : StreamReadBuffer := ⟨[], 0, false⟩

/-- `read`, with the bytes it returns and its `fin`. -/
def read (buffer : StreamReadBuffer) (bufLen : Nat) : StreamReadBuffer × List UInt8 × Bool :=
  let available := buffer.data.length - buffer.readOffset
  if available = 0 then (buffer, [], buffer.finReceived)
  else
    let toRead := min available bufLen
    let readOffset := buffer.readOffset + toRead
    ({ buffer with readOffset }, (buffer.data.drop buffer.readOffset).take toRead,
      buffer.finReceived && decide (readOffset ≥ buffer.data.length))

/-- What `readFromQuicheToBuffer` appends. -/
def append (buffer : StreamReadBuffer) (bytes : List UInt8) (localFin : Bool) : StreamReadBuffer :=
  { buffer with data := buffer.data ++ bytes, finReceived := buffer.finReceived || localFin }

end StreamReadBuffer

abbrev Packet := List UInt8

/-- What `quiche_conn_send` answers. -/
inductive SendResult where
  | packet (bytes : Packet)
  | done
  | failed
deriving DecidableEq

/-- The packets made in a `flushEgress`, those that went to the socket, and whether it came to
an end. -/
structure Egress where
  produced : List Packet
  passed : List Packet
  completed : Bool
deriving DecidableEq

/-- A `sendmmsg` call leaves out the last packets of the batch, or all of them when it fails. -/
def sendmmsg (batch : List Packet) (leftOut : Nat) : List Packet := batch.take (batch.length - leftOut)

/-- The batches of `flushEgress`, with the answers of `quiche_conn_send` and how many packets
each `sendmmsg` leaves out. -/
def sendBatches (batch : List Packet) (socket : List Nat) : List SendResult → Egress
  | [] | .done :: _ => ⟨batch, sendmmsg batch (socket.headD 0), true⟩
  | .failed :: _ => ⟨batch, [], false⟩
  | .packet bytes :: calls =>
    let batch := batch ++ [bytes]
    if batch.length < batchSize then sendBatches batch socket calls
    else
      let later := sendBatches [] socket.tail calls
      ⟨batch ++ later.produced, sendmmsg batch (socket.headD 0) ++ later.passed, later.completed⟩

/-- What a stream of the transport took from `quiche_conn_stream_send`. -/
structure Outgoing where
  sent : List UInt8
  fin : Bool
deriving DecidableEq

/-- `quiche_conn_stream_send` while there is room for so many bytes. -/
def Outgoing.streamSend (outgoing : Outgoing) (room : Nat) (data : List UInt8) (fin : Bool) : Outgoing :=
  if room = 0 ∧ data.length > 0 then outgoing
  else if outgoing.fin ∧ (data.length > 0 ∨ fin = false) then outgoing
  else ⟨outgoing.sent ++ data.take room, outgoing.fin || (fin && decide (data.length ≤ room))⟩

/-- `quiche_conn_stream_recv` -/
def RecvBuf.Session.streamRecv (session : RecvBuf.Session) (cap : Nat) :
    Option (RecvBuf.Session × Except Error (List UInt8 × Bool)) := (session.recv.emit cap).map fun (recv, result) =>
    match result with
    | .ok (out, fin) =>
      ({ session with recv, delivered := session.delivered ++ out, finSeen := session.finSeen || fin }, .ok (out, fin))
    | .error error => ({ session with recv }, .error error)

inductive AppPhase where
  | idle
  | writing
  | closing
  | breaking
  | joining
  | returned
deriving DecidableEq

/-- Where the event loop is. An iteration that found the wake-up has `asyncCallback` due. -/
inductive LoopPhase where
  | polling
  | callbacks (asyncDue : Bool)
  | commands
  | ended
deriving DecidableEq

/-- `QuicheEngineImpl` with its two threads, the transport's streams, and the history that its
guarantees speak of. -/
structure Engine where
  streamId : Nat
  cmdQueue : List Command
  streamBuffers : Nat → StreamReadBuffer
  isRunning : Bool
  app : AppPhase
  loop : LoopPhase
  asyncSent : Bool
  loopDone : Bool
  /-- The streams that the current `flushEgress` still has to read. -/
  readable : List Nat
  outgoing : Nat → Outgoing
  incoming : AList fun _ : Nat => RecvBuf.Session
  pushed : List Command
  executed : List Command
  produced : List Packet
  passed : List Packet
  returned : List UInt8
  finReported : Bool
  /-- Nothing arrived after the last `flushEgress`. -/
  flushed : Bool

namespace Engine

/-- The state when `start` has returned. -/
def start (streamId : Nat) : Engine where
  streamId := streamId
  cmdQueue := []
  streamBuffers := fun _ => .new
  isRunning := true
  app := .idle
  loop := .polling
  asyncSent := false
  loopDone := false
  readable := []
  outgoing := fun _ => ⟨[], false⟩
  incoming := ∅
  pushed := []
  executed := []
  produced := []
  passed := []
  returned := []
  finReported := false
  flushed := false

inductive Op where
  | write (data : List UInt8) (fin : Bool)
  | asyncSend
  | read (bufLen : Nat)
  | shutdown (appError : Nat) (reason : List UInt8)
  | breakLoop
  | join
  | poll
  | recv (id : Nat) (maxData maxWindow : UInt64) (chunk : RecvBuf.Chunk)
  | reset (id errorCode finalSize : Nat)
  | raiseMaxData (id : Nat) (maxData : UInt64)
  | flushEgress (socket : List Nat) (calls : List SendResult) (order : List Nat)
  | readFromQuicheToBuffer
  | asyncCallback
  | processCommand (room : Nat) (socket : List Nat) (calls : List SendResult) (order : List Nat)
  | connectionClosed
  | endIteration
  | exit

def push (engine : Engine) (cmd : Command) : Engine :=
  { engine with cmdQueue := engine.cmdQueue ++ [cmd], pushed := engine.pushed ++ [cmd] }

/-- `write`; a call with too much data is refused. -/
def write (engine : Engine) (data : List UInt8) (fin : Bool) : Engine × Option Nat :=
  if data.length > maxWriteDataSize then (engine, none)
  else ({ engine.push (.write engine.streamId data fin) with app := .writing }, some data.length)

def read (engine : Engine) (bufLen : Nat) : Engine × List UInt8 × Bool :=
  let (buffer, out, fin) := (engine.streamBuffers engine.streamId).read bufLen
  ({ engine with
    streamBuffers := Function.update engine.streamBuffers engine.streamId buffer
    returned := engine.returned ++ out
    finReported := engine.finReported || fin }, out, fin)

/-- The part of `shutdown` up to the wake-up: `CLOSE` only goes to a running loop. -/
def shutdown (engine : Engine) (appError : Nat) (reason : List UInt8) : Engine :=
  -- `Command` holds a C string of up to 255 characters.
  if engine.isRunning then
    { engine.push (.close appError ((reason.takeWhile (· ≠ 0)).take 255)) with app := .closing }
  else { engine with app := .breaking }

/-- `quiche_conn_readable`: the streams are read in some order. -/
def Readable (engine : Engine) (order : List Nat) : Prop := order.Perm (engine.incoming.keys.filter fun id =>
    (engine.incoming.lookup id).any fun session => session.recv.ready)

instance (engine : Engine) (order : List Nat) : Decidable (engine.Readable order) :=
  inferInstanceAs (Decidable (List.Perm _ _))

/-- `flushEgress` up to its reads; it leaves them out when a packet cannot be made. -/
def flushEgress (engine : Engine) (socket : List Nat) (calls : List SendResult) (order : List Nat) : Option Engine :=
  if engine.Readable order then
    let egress := sendBatches [] socket calls
    some { engine with
      produced := engine.produced ++ egress.produced
      passed := engine.passed ++ egress.passed
      readable := if egress.completed then order else []
      flushed := true }
  else none

def readFromQuicheToBuffer (engine : Engine) (streamId : Nat) : Option Engine :=
  match engine.incoming.lookup streamId with
  | none => some engine
  | some session =>
    (session.streamRecv tempBufSize).map fun (session, result) =>
      let engine := { engine with incoming := engine.incoming.insert streamId session }
      match result with
      | .error _ => engine
      | .ok (bytes, localFin) =>
        let buffer := (engine.streamBuffers streamId).append bytes localFin
        { engine with streamBuffers := Function.update engine.streamBuffers streamId buffer }

/-- One round of the loop of `processCommands`. -/
def processCommand (engine : Engine) (room : Nat) (socket : List Nat) (calls : List SendResult)
    (order : List Nat) : Option Engine :=
  match engine.cmdQueue with
  | [] => some { engine with loop := .callbacks false }
  | cmd :: cmdQueue =>
    let engine := { engine with cmdQueue, executed := engine.executed ++ [cmd] }
    match cmd with
    | .write streamId data fin =>
      -- What `quiche_conn_stream_send` did not take is deleted with the command.
      let sent := (engine.outgoing streamId).streamSend room data fin
      let engine := { engine with outgoing := Function.update engine.outgoing streamId sent }
      engine.flushEgress socket calls order
    | .close _ _ => engine.flushEgress socket calls order
    | .stop => some { engine with loopDone := true }

/-- A frame of a stream that may be new. -/
def recv (engine : Engine) (id : Nat) (maxData maxWindow : UInt64) (chunk : RecvBuf.Chunk) : Option Engine :=
  let session := (engine.incoming.lookup id).getD (.start maxData.toNat maxWindow.toNat)
  (session.step (.write chunk)).map fun session =>
    { engine with incoming := engine.incoming.insert id session, flushed := false }

def reset (engine : Engine) (id errorCode finalSize : Nat) : Option Engine :=
  (engine.incoming.lookup id).bind fun session =>
    (session.recv.reset errorCode finalSize).map fun (recv, _) =>
      { engine with incoming := engine.incoming.insert id { session with recv }, flushed := false }

/-- The limit of a stream only grows. -/
def raiseMaxData (engine : Engine) (id maxData : Nat) : Option Engine := (engine.incoming.lookup id).map fun session =>
    let flowControl := { session.recv.flowControl with maxData := max session.recv.flowControl.maxData maxData }
    { engine with incoming := engine.incoming.insert id { session with recv := { session.recv with flowControl } } }

/-- The event loop is in an iteration, and in no `flushEgress`. -/
def inCallbacks (engine : Engine) : Bool := (match engine.loop with
    | .callbacks _ => true
    | _ => false) && engine.readable.isEmpty

def step (engine : Engine) : Op → Option Engine
  | .write data fin => if engine.app = .idle then some (engine.write data fin).1 else none
  | .asyncSend =>
    match engine.app with
    | .writing => some { engine with asyncSent := true, app := .idle }
    | .closing => some { engine with asyncSent := true, app := .breaking }
    | _ => none
  | .read bufLen => some (engine.read bufLen).1
  | .shutdown appError reason => if engine.app = .idle then some (engine.shutdown appError reason) else none
  | .breakLoop =>
    if engine.app = .breaking then
      some { engine with loopDone := engine.loopDone || engine.isRunning, app := .joining }
    else none
  | .join =>
    if engine.app = .joining ∧ engine.loop = .ended ∧ engine.isRunning = false then
      some { engine with app := .returned }
    else none
  | .poll =>
    if engine.loop = .polling then
      some { engine with loop := .callbacks engine.asyncSent, asyncSent := false }
    else none
  | .recv id maxData maxWindow chunk => if engine.inCallbacks then engine.recv id maxData maxWindow chunk else none
  | .reset id errorCode finalSize => if engine.inCallbacks then engine.reset id errorCode finalSize else none
  | .raiseMaxData id maxData => if engine.inCallbacks then engine.raiseMaxData id maxData.toNat else none
  | .flushEgress socket calls order => if engine.inCallbacks then engine.flushEgress socket calls order else none
  | .readFromQuicheToBuffer =>
    match engine.readable with
    | [] => none
    | streamId :: readable => { engine with readable }.readFromQuicheToBuffer streamId
  | .asyncCallback =>
    if engine.loop = .callbacks true ∧ engine.readable = [] then some { engine with loop := .commands } else none
  | .processCommand room socket calls order =>
    if engine.loop = .commands ∧ engine.readable = [] then engine.processCommand room socket calls order else none
  | .connectionClosed => if engine.inCallbacks then some { engine with loopDone := true } else none
  | .endIteration =>
    if engine.loop = .callbacks false ∧ engine.readable = [] then
      some { engine with loop := if engine.loopDone then .ended else .polling }
    else none
  | .exit => if engine.loop = .ended then some { engine with isRunning := false } else none

def machine : Machine Engine Op := ⟨step⟩

end Engine

end Quiche
