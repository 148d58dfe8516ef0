import Mathlib.Data.Finset.Erase
import Quiche.Connection.Effect
import Quiche.Data.Ledger

namespace Quiche

open Data

namespace StreamMap

def removeAlmostFull (map : StreamMap) (streamId : Nat) : StreamMap :=
  { map with almostFull := map.almostFull.erase streamId }

def removeStopped (map : StreamMap) (streamId : Nat) : StreamMap :=
  { map with stopped := map.stopped.erase streamId }

def removeReset (map : StreamMap) (streamId : Nat) : StreamMap :=
  { map with reset := map.reset.erase streamId }

/-- `send_single` for a MAX_STREAMS frame of either type. -/
def sendMaxStreams (should : Option Bool) (frame : Frame) (updated map : StreamMap) (left : Nat) :
    Option (StreamMap × Option Frame) := do
  if ← should then
    if (← frame.wireLen) ≤ left then return (updated, some frame)
  return (map, none)

def sendMaxStreamsBidi (map : StreamMap) (left : Nat) : Option (StreamMap × Option Frame) :=
  sendMaxStreams map.shouldUpdateMaxStreamsBidi (.maxStreamsBidi map.maxStreamsBidiNext)
    map.updateMaxStreamsBidi map left

def sendMaxStreamsUni (map : StreamMap) (left : Nat) : Option (StreamMap × Option Frame) :=
  sendMaxStreams map.shouldUpdateMaxStreamsUni (.maxStreamsUni map.maxStreamsUniNext)
    map.updateMaxStreamsUni map left

end StreamMap

namespace Connection

/-! The frames with which `send_single` keeps the limits and the cancellations of streams up
to date in a Short packet on the active path, and what becomes of them. -/

section Creation

/-- The turn of the loop over the almost full streams that concerns `streamId`. The lower
bound of the connection window is a product in floating point. -/
def sendMaxStreamData (conn : Connection) (streamId now rtt minWindow left : Nat) :
    Option (Connection × Option Frame) :=
  if streamId ∈ conn.streams.almostFull then
    match conn.streams.get streamId with
    | none =>
      -- The stream doesn't exist anymore.
      some ({ conn with streams := conn.streams.removeAlmostFull streamId }, none)
    | some stream => do
      -- Autotune the stream window size.
      let flowControl ← stream.recv.flowControl.autotuneWindow now rtt
      let frame := .maxStreamData streamId (← flowControl.maxDataNext)
      if (← Frame.wireLen frame) ≤ left then
        let recv := { stream.recv with flowControl := ← flowControl.updateMaxData now }
        return (
          { conn with
            streams := (conn.streams.set streamId { stream with recv }).removeAlmostFull streamId
            flowControl := conn.flowControl.ensureWindowLowerBound minWindow
            -- Also send MAX_DATA when MAX_STREAM_DATA is sent.
            almostFull := true },
          some frame)
      else
        let recv := { stream.recv with flowControl }
        return ({ conn with streams := conn.streams.set streamId { stream with recv } }, none)
  else some (conn, none)

def sendMaxData (conn : Connection) (now rtt left : Nat) : Option (Connection × Option Frame) := do
  if conn.almostFull then
    if conn.flowControl.maxData < (← conn.flowControl.maxDataNext) then
      -- Autotune the connection window size.
      let flowControl ← conn.flowControl.autotuneWindow now rtt
      let frame := .maxData (← flowControl.maxDataNext)
      if (← Frame.wireLen frame) ≤ left then
        return ({ conn with flowControl := ← flowControl.updateMaxData now, almostFull := false }, some frame)
      else return ({ conn with flowControl }, none)
  return (conn, none)

/-- The turn of the loop over the stopped streams that concerns `streamId`. -/
def sendStopSending (conn : Connection) (streamId left : Nat) : Option (Connection × Option Frame) :=
  match conn.streams.stopped.lookup streamId with
  | none => some (conn, none)
  | some errorCode => do
    let frame := .stopSending streamId errorCode
    if (← Frame.wireLen frame) ≤ left then
      return ({ conn with streams := conn.streams.removeStopped streamId }, some frame)
    else return (conn, none)

/-- The turn of the loop over the reset streams that concerns `streamId`. -/
def sendResetStream (conn : Connection) (streamId left : Nat) : Option (Connection × Option Frame) :=
  match conn.streams.reset.lookup streamId with
  | none => some (conn, none)
  | some (errorCode, finalSize) => do
    let frame := .resetStream streamId errorCode finalSize
    if (← Frame.wireLen frame) ≤ left then
      return ({ conn with streams := conn.streams.removeReset streamId }, some frame)
    else return (conn, none)

/-- The next frame of a packet. Hash maps are iterated over in any order, so a packet is any
sequence of these. -/
inductive Creation where
  | maxStreamsBidi
  | maxStreamsUni
  | maxStreamData (streamId now rtt minWindow : Nat)
  | maxData (now rtt : Nat)
  | stopSending (streamId : Nat)
  | resetStream (streamId : Nat)
  | stream

def create (conn : Connection) (left : Nat) : Creation → Option (Connection × Option Frame)
  | .maxStreamsBidi => (conn.streams.sendMaxStreamsBidi left).map fun (streams, frame) =>
    ({ conn with streams }, frame)
  | .maxStreamsUni => (conn.streams.sendMaxStreamsUni left).map fun (streams, frame) =>
    ({ conn with streams }, frame)
  | .maxStreamData streamId now rtt minWindow => conn.sendMaxStreamData streamId now rtt minWindow left
  | .maxData now rtt => conn.sendMaxData now rtt left
  | .stopSending streamId => conn.sendStopSending streamId left
  | .resetStream streamId => conn.sendResetStream streamId left
  | .stream => (conn.sendStream left).map fun (conn, header) =>
    (conn, header.map fun sent => .streamHeader sent.streamId sent.offset sent.length sent.fin)

end Creation

section Outcome

/-- What `recv_single` does for an acknowledged frame, as far as streams are concerned. -/
def ackedFrame (conn : Connection) : Frame → Option Connection
  | .streamHeader streamId offset length _ => conn.ackedStream streamId offset length
  | .resetStream streamId _ _ => conn.ackedResetStream streamId
  | _ => some conn

/-- What `send_single` does for a lost frame, as far as streams and limits are concerned. -/
def lostFrame (conn : Connection) : Frame → Option Connection
  | .streamHeader streamId offset length fin => conn.lostStream ⟨streamId, offset, length, fin⟩
  | .resetStream streamId errorCode finalSize =>
    if (conn.streams.get streamId).isSome then
      some { conn with streams := conn.streams.insertReset streamId errorCode finalSize }
    else some conn
  | .maxStreamData streamId _ =>
    if (conn.streams.get streamId).isSome then
      some { conn with streams := conn.streams.insertAlmostFull streamId }
    else some conn
  | .maxData _ => some { conn with almostFull := true }
  | _ => some conn

end Outcome

def Call.direct : Call → Bool
  | .stream .. | .resetStream .. | .stopSending .. | .maxData .. | .maxStreamData .. | .peerTransportParams ..
  | .streamRecv .. | .streamSend .. | .streamSendZc .. | .streamPriority .. | .streamShutdown ..
  | .updateTxCap .. => true
  | .ackedStream .. | .ackedResetStream .. | .lostStream .. | .sendStream .. | .updateFlowControl ..
  | .updateStreamFlowControl .. | .updateMaxStreams .. => false

structure Transit where
  conn : Connection
  sent : Ledger Frame

namespace Transit

inductive Event where
  | call (call : Call)
  | maxStreams (bidi : Bool) (limit : Nat)
  | create (creation : Creation) (left : Nat)
  | acked (index : Nat)
  | lost (index : Nat)

def start (config : Config) (scid : List UInt8) (localAddr peerAddr : SocketAddr)
    (addressVerified isServer : Bool) : Transit :=
  ⟨Connection.new config scid localAddr peerAddr addressVerified isServer, []⟩

def step (transit : Transit) : Event → Option Transit
  | .call call =>
    if call.direct then (transit.conn.step call).map fun conn => { transit with conn } else none
  | .maxStreams bidi limit =>
    let streams := transit.conn.streams
    some { transit with
      conn := { transit.conn with
        streams := if bidi then streams.updatePeerMaxStreamsBidi limit
          else streams.updatePeerMaxStreamsUni limit } }
  | .create creation left => do
    let (conn, frame) ← transit.conn.create left creation
    return ⟨conn, frame.elim transit.sent transit.sent.send⟩
  | .acked index => do
    let (frame, sent) ← transit.sent.resolve index .acked
    return ⟨← transit.conn.ackedFrame frame, sent⟩
  | .lost index => do
    let (frame, sent) ← transit.sent.resolve index .lost
    return ⟨← transit.conn.lostFrame frame, sent⟩

def machine : Machine Transit Event := ⟨step⟩

/-- What a step does, event by event. -/
inductive Steps (transit : Transit) : Event → Transit → Prop where
  | call {call : Call} {conn : Connection} (direct : call.direct = true) (moved : transit.conn.step call = some conn) :
      Steps transit (.call call) { transit with conn }
  | maxStreams {bidi : Bool} {limit : Nat} {streams : StreamMap} (limited : streams = if bidi
        then transit.conn.streams.updatePeerMaxStreamsBidi limit else transit.conn.streams.updatePeerMaxStreamsUni limit) :
      Steps transit (.maxStreams bidi limit) { transit with conn := { transit.conn with streams } }
  | create {creation : Creation} {left : Nat} {conn : Connection} {frame : Option Frame}
      (created : transit.conn.create left creation = some (conn, frame)) :
      Steps transit (.create creation left) ⟨conn, frame.elim transit.sent transit.sent.send⟩
  | acked {index : Nat} {frame : Frame} {sent : Ledger Frame} {conn : Connection}
      (resolved : transit.sent.resolve index .acked = some (frame, sent))
      (acked : transit.conn.ackedFrame frame = some conn) : Steps transit (.acked index) ⟨conn, sent⟩
  | lost {index : Nat} {frame : Frame} {sent : Ledger Frame} {conn : Connection}
      (resolved : transit.sent.resolve index .lost = some (frame, sent))
      (lost : transit.conn.lostFrame frame = some conn) : Steps transit (.lost index) ⟨conn, sent⟩

theorem steps_of_step {transit after : Transit} {event : Event} (stepped : transit.step event = some after) :
    transit.Steps event after := by
  cases event with
  | call call =>
    rw [step] at stepped
    split at stepped
    · rename_i direct
      obtain ⟨conn, moved, rfl⟩ := Option.map_eq_some_iff.mp stepped
      exact .call direct moved
    · cases stepped
  | maxStreams bidi limit =>
    cases stepped
    exact .maxStreams rfl
  | create creation left =>
    obtain ⟨⟨conn, frame⟩, created, stepped⟩ := Option.bind_eq_some_iff.mp stepped
    cases stepped
    exact .create created
  | acked index =>
    obtain ⟨⟨frame, sent⟩, resolved, stepped⟩ := Option.bind_eq_some_iff.mp stepped
    obtain ⟨conn, acked, stepped⟩ := Option.bind_eq_some_iff.mp stepped
    cases stepped
    exact .acked resolved acked
  | lost index =>
    obtain ⟨⟨frame, sent⟩, resolved, stepped⟩ := Option.bind_eq_some_iff.mp stepped
    obtain ⟨conn, lost, stepped⟩ := Option.bind_eq_some_iff.mp stepped
    cases stepped
    exact .lost resolved lost

end Transit

end Connection

end Quiche
