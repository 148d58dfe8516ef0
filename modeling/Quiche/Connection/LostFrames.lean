import Quiche.Connection.Drain
import Quiche.Pmtud
import Quiche.Recovery.Dispatch

namespace Quiche

open Data

structure LossyPath where
  recovery : Recovery
  pmtud : Option Pmtud
  streamRetransBytes : Nat
  retransCount : Nat

namespace LossyPath

def lostFrames (path : LossyPath) (epoch : Epoch) : List Frame := path.recovery.frames epoch .lost

/-- The path after `get_lost_frames`. -/
def getLostFrames (path : LossyPath) (epoch : Epoch) : LossyPath :=
  { path with recovery := path.recovery.getLostFrames epoch }

def countRetrans (path : LossyPath) (length : Nat) : LossyPath :=
  { path with
    streamRetransBytes := path.streamRetransBytes + length
    retransCount := path.retransCount + 1 }

end LossyPath

structure Resending where
  conn : Connection
  cryptoStreams : Epoch → SendBuf
  ackElicited : Epoch → Bool
  handshakeDoneAcked : Bool
  handshakeDoneSent : Bool
  streamRetransBytes : Nat
  retransCount : Nat

namespace Resending

def countRetrans (state : Resending) (length : Nat) : Resending :=
  { state with
    streamRetransBytes := state.streamRetransBytes + length
    retransCount := state.retransCount + 1 }

/-- What `send_single` does for a lost frame. -/
def resend (epoch : Epoch) (state : Resending) (path : LossyPath) (lost : Frame) :
    Option (Resending × LossyPath × Except Error Unit) :=
  match lost with
  | .cryptoHeader offset length => do
    let send ← (state.cryptoStreams epoch).retransmit offset length
    return ({ state with cryptoStreams := Function.update state.cryptoStreams epoch send }.countRetrans length,
      path.countRetrans length, .ok ())
  | .streamHeader streamId _ length _ =>
    if (state.conn.streams.get streamId).isNone then some (state, path, .ok ())
    else do
      let conn ← state.conn.lostFrame lost
      return ({ state with conn }.countRetrans length, path.countRetrans length, .ok ())
  | .ack .. => some ({ state with ackElicited := Function.update state.ackElicited epoch true }, path, .ok ())
  | .resetStream .. | .maxStreamData .. | .maxData .. => do
    return ({ state with conn := ← state.conn.lostFrame lost }, path, .ok ())
  | .handshakeDone =>
    -- Retransmit HANDSHAKE_DONE only if it hasn't been acked at least once already.
    if state.handshakeDoneAcked then some (state, path, .ok ())
    else some ({ state with handshakeDoneSent := false }, path, .ok ())
  | .newConnectionId seqNum .. =>
    let ids := state.conn.ids.markAdvertiseNewScidSeq seqNum true
    some ({ state with conn := { state.conn with ids } }, path, .ok ())
  | .retireConnectionId seqNum =>
    match ConnectionIdentifiers.markRetireDcidSeq seqNum true state.conn.ids with
    | .ok _ ids => some ({ state with conn := { state.conn with ids } }, path, .ok ())
    | .error reason ids => some ({ state with conn := { state.conn with ids } }, path, .error reason)
  | .ping (some failedProbe) =>
    match path.pmtud with
    | none => some (state, path, .ok ())
    | some pmtud => do return (state, { path with pmtud := some (← pmtud.failedProbe failedProbe) }, .ok ())
  | _ => some (state, path, .ok ())

def resendAll (epoch : Epoch) : List Frame → Resending → LossyPath → Option (Resending × LossyPath × Except Error Unit)
  | [], state, path => some (state, path, .ok ())
  | lost :: rest, state, path =>
    match state.resend epoch path lost with
    | none => none
    | some (state, path, .error reason) => some (state, path, .error reason)
    | some (state, path, .ok ()) => resendAll epoch rest state path

/-- The part of `send_single` that processes the lost frames of an epoch. -/
def processLostFrames (epoch : Epoch) : List LossyPath → Resending →
    Option (Resending × List LossyPath × Except Error Unit)
  | [], state => some (state, [], .ok ())
  | path :: others, state =>
    match resendAll epoch (path.lostFrames epoch) state (path.getLostFrames epoch) with
    | none => none
    | some (state, path, .error reason) => some (state, path :: others, .error reason)
    | some (state, path, .ok ()) => do
      let (state, others, result) ← processLostFrames epoch others state
      return (state, path :: others, result)

end Resending

section Demand

/-- A thing that is done again when the frame that carried it is lost. -/
inductive Demand where
  | crypto (place : Nat)
  | stream (streamId place : Nat)
  | fin (streamId : Nat)
  | ack
  | resetStream (streamId : Nat)
  | handshakeDone
  | maxStreamData (streamId : Nat)
  | maxData
  | newConnectionId (seqNum : Nat)
  | retireConnectionId (seqNum : Nat)

/-- What is to be sent again when the frame is lost. -/
def Frame.Demands : Frame → Demand → Prop
  | .cryptoHeader offset length => fun demand =>
    ∃ place, demand = .crypto place ∧ offset ≤ place ∧ place < offset + length
  | .streamHeader streamId offset length fin => fun demand =>
    (∃ place, demand = .stream streamId place ∧ offset ≤ place ∧ place < offset + length) ∨
      demand = .fin streamId ∧ length = 0 ∧ fin = true
  | .ack .. => fun demand => demand = .ack
  | .resetStream streamId .. => fun demand => demand = .resetStream streamId
  | .handshakeDone => fun demand => demand = .handshakeDone
  | .maxStreamData streamId .. => fun demand => demand = .maxStreamData streamId
  | .maxData .. => fun demand => demand = .maxData
  | .newConnectionId seqNum .. => fun demand => demand = .newConnectionId seqNum
  | .retireConnectionId seqNum => fun demand => demand = .retireConnectionId seqNum
  | _ => fun _ => False

namespace Resending

/-- The demand is recorded, so that it will be sent. -/
def Met (epoch : Epoch) (state : Resending) : Demand → Prop
  | .crypto place => (state.cryptoStreams epoch).Waits place
  | .stream streamId place => ∀ stream, state.conn.streams.get streamId = some stream → stream.send.Waits place
  | .fin streamId => ∀ stream, state.conn.streams.get streamId = some stream →
      stream.priorityKey ∈ state.conn.streams.flushable ∨ stream.send.Sendable
  | .ack => state.ackElicited epoch = true
  | .resetStream streamId => (state.conn.streams.get streamId).isSome → streamId ∈ state.conn.streams.reset
  | .handshakeDone => state.handshakeDoneAcked = true ∨ state.handshakeDoneSent = false
  | .maxStreamData streamId => (state.conn.streams.get streamId).isSome → streamId ∈ state.conn.streams.almostFull
  | .maxData => state.conn.almostFull = true
  | .newConnectionId seqNum => seqNum ∈ state.conn.ids.advertiseNewScidSeqs
  | .retireConnectionId seqNum => seqNum ∈ state.conn.ids.retireDcidSeqs.inner

/-- All that the frame demands is recorded. -/
def Recorded (epoch : Epoch) (state : Resending) (frame : Frame) : Prop :=
  ∀ demand, frame.Demands demand → state.Met epoch demand

/-- The frame meets the demand, as its own or as the FIN of a stream whose data goes back into its buffer. -/
def Serves (state : Resending) (frame : Frame) (demand : Demand) : Prop :=
  frame.Demands demand ∨ ∃ streamId offset length fin stream, frame = .streamHeader streamId offset length fin ∧
    demand = .fin streamId ∧ state.conn.streams.get streamId = some stream ∧
    ∃ place < stream.send.maxData, stream.send.Returns offset length place

end Resending

end Demand

section Room

namespace ConnectionIdSeqSet

def admitFrame (set : ConnectionIdSeqSet) : Frame → Except Error ConnectionIdSeqSet
  | .retireConnectionId seqNum => set.insert seqNum
  | _ => .ok set

def admitFrames : ConnectionIdSeqSet → List Frame → ConnectionIdSeqSet × List Frame × List Frame
  | set, [] => (set, [], [])
  | set, frame :: rest =>
    match set.admitFrame frame with
    | .error _ => (set, [], frame :: rest)
    | .ok grown =>
      let (last, handled, left) := admitFrames grown rest
      (last, frame :: handled, left)

def admitAll : ConnectionIdSeqSet → List (List Frame) → List Frame × List Frame
  | _, [] => ([], [])
  | set, frames :: others =>
    match set.admitFrames frames with
    | (_, handled, next :: left) => (handled, next :: left)
    | (grown, handled, []) =>
      let (more, left) := admitAll grown others
      (handled ++ more, left)

end ConnectionIdSeqSet

/-- What the frames left behind demand is recorded anyway, or served by a frame that is handled. -/
def Resending.Spared (epoch : Epoch) (state : Resending) (paths : List LossyPath) : Prop :=
  let (handled, left) := state.conn.ids.retireDcidSeqs.admitAll (paths.map (·.lostFrames epoch))
  ∀ frame ∈ left, ∀ demand, frame.Demands demand →
    state.Met epoch demand ∨ ∃ earlier ∈ handled, state.Serves earlier demand

end Room

structure Resender where
  state : Resending
  paths : List LossyPath
  sent : Ledger Frame

namespace Resender

/-- What happens to the streams and to the CRYPTO data of a connection. Whatever else there is may change in any
way. -/
inductive Event where
  | transit (event : Connection.Transit.Event)
  | cryptoClear (epoch : Epoch)
  | cryptoWrite (epoch : Epoch) (data : List UInt8)
  | cryptoEmit (epoch : Epoch) (outLen : Nat)
  | cryptoAcked (epoch : Epoch) (offset length : Nat)
  | others (ids : ConnectionIdentifiers) (paths : List LossyPath) (ackElicited : Epoch → Bool)
      (handshakeDoneAcked handshakeDoneSent : Bool)
  | processLostFrames (epoch : Epoch)

/-- The data that `CryptoContext::new` starts with. -/
def newCryptoStream : SendBuf := .new (2 ^ 64 - 1)

def start (config : Config) (scid : List UInt8) (localAddr peerAddr : SocketAddr)
    (addressVerified isServer : Bool) : Resender where
  state :=
    { conn := Connection.new config scid localAddr peerAddr addressVerified isServer
      cryptoStreams := fun _ => newCryptoStream
      ackElicited := fun _ => false
      handshakeDoneAcked := false
      handshakeDoneSent := false
      streamRetransBytes := 0
      retransCount := 0 }
  paths := []
  sent := []

def setCryptoStream (run : Resender) (epoch : Epoch) (send : SendBuf) : Resender :=
  { run with state := { run.state with cryptoStreams := Function.update run.state.cryptoStreams epoch send } }

def step (run : Resender) : Event → Option Resender
  | .transit event => do
    let moved ← Connection.Transit.step ⟨run.state.conn, run.sent⟩ event
    return { run with state := { run.state with conn := moved.conn }, sent := moved.sent }
  | .cryptoClear epoch => some (run.setCryptoStream epoch newCryptoStream)
  | .cryptoWrite epoch data => do
    let (send, _) ← (run.state.cryptoStreams epoch).write data false
    return run.setCryptoStream epoch send
  | .cryptoEmit epoch outLen => do
    let (send, _) ← (run.state.cryptoStreams epoch).emit outLen
    return run.setCryptoStream epoch send
  | .cryptoAcked epoch offset length => do
    return run.setCryptoStream epoch (← (run.state.cryptoStreams epoch).ackAndDrop offset length)
  | .others ids paths ackElicited handshakeDoneAcked handshakeDoneSent =>
    some { run with
      state := { run.state with
        conn := { run.state.conn with ids }
        ackElicited
        handshakeDoneAcked
        handshakeDoneSent }
      paths }
  | .processLostFrames epoch => do
    let (state, paths, _) ← Resending.processLostFrames epoch run.paths run.state
    return { run with state, paths }

def machine : Machine Resender Event := ⟨step⟩

end Resender

end Quiche
