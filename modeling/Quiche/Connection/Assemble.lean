import Quiche.Connection
import Quiche.Connection.Sender
import Quiche.Packet.Header

namespace Quiche

open Data

def payloadLengthLen : Nat := 2
def payloadMinLen : Nat := 4
def maxCryptoOverhead : Nat := 8

/-- Where the length of a packet stands, and what it says. -/
structure LengthField where
  place : Nat
  length : Nat
deriving DecidableEq, Repr

/-- What `send_single` reads for a packet beside the sender: the header, what the AEAD of its epoch and of the
application epoch add, the length of `destination_id()`, the congestion window of the active path, and what there is
to send. -/
structure Plan where
  header : Packet.Header
  pn : Nat
  cryptoOverhead : Nat
  applicationOverhead : Option Nat
  dcidLen : Nat
  cwndAvailable : Nat
  isClosing : Bool
  isActive : Bool
  cryptoStream : Stream
  streams : StreamMap

/-- What `send_single` knows of a packet before it writes the frames. -/
structure Envelope where
  ty : PacketType
  pnLen : Nat
  cryptoOverhead : Nat
  overhead : Nat
  headerOffset : Nat
  payloadOffset : Nat
  isClosing : Bool
  isActive : Bool
  emitDgram : Bool
  maxDgramLen : Option Nat
  probeSize : Option Nat

/-- A packet that is being built. `inDgrams` and `inStreams` say that the loop over the datagrams or the
streams was entered and not left; `fields` lists the length fields that were filled in. -/
structure Draft where
  envelope : Envelope
  b : Octets
  left : Nat
  framesEmpty : Bool
  isPmtudProbe : Bool
  cryptoStream : Stream
  dgramSendQueue : DatagramQueue
  streams : StreamMap
  inDgrams : Bool
  inStreams : Bool
  dgramEmitted : Bool
  fields : List LengthField

namespace Draft

def skip (len : Nat) : Octets.Action Unit := do
  if (← get).cap < len then Octets.tooShort else modify (Octets.advance len)

def open_ (header : Packet.Header) (pn : Nat) : Octets.Action (Nat × Nat) := do
  let headerOffset := (← get).off
  if header.ty = .short then pure () else skip payloadLengthLen
  Packet.encodePktNum pn header.pktNumLen
  return (headerOffset, (← get).off)

def overhead (header : Packet.Header) (cryptoOverhead : Nat) (b : Octets) : Nat :=
  b.off + header.pktNumLen + cryptoOverhead + if header.ty = .short then 0 else payloadLengthLen

def maxDgramLen (sender : Sender) (plan : Plan) : Option Nat :=
  if sender.dgramSendQueue.isEmpty then none else sender.dgramMaxWritableLen plan.dcidLen plan.applicationOverhead

/-- The part of `send_single` before the frames. -/
def start (sender : Sender) (plan : Plan) : Option Draft :=
  match plan.header.toBytes (.withSlice sender.out) with
  | .error _ _ => none
  | .ok _ b => do
    let overhead := overhead plan.header plan.cryptoOverhead b
    let left ← subChecked sender.room overhead
    if left < payloadMinLen then none
    else
      match open_ plan.header plan.pn b with
      | .error _ _ => none
      | .ok (headerOffset, payloadOffset) b =>
        some
          { envelope :=
              { ty := plan.header.ty, pnLen := plan.header.pktNumLen, cryptoOverhead := plan.cryptoOverhead
                overhead, headerOffset, payloadOffset, isClosing := plan.isClosing, isActive := plan.isActive
                emitDgram := sender.emitDgram, maxDgramLen := maxDgramLen sender plan
                probeSize := sender.probeSize plan.cwndAvailable plan.isClosing }
            b, left, framesEmpty := true, isPmtudProbe := false
            cryptoStream := plan.cryptoStream, dgramSendQueue := sender.dgramSendQueue, streams := plan.streams
            inDgrams := false, inStreams := false, dgramEmitted := false, fields := [] }

variable (draft : Draft)

/-- `push_frame_to_pkt!`, and whether there was room for the frame. -/
def pushFrame (frame : Frame) : Option (Draft × Bool) := do
  let len ← frame.wireLen
  if len ≤ draft.left then
    match frame.toBytes draft.b with
    | .ok _ b => some ({ draft with b, left := draft.left - len, framesEmpty := false }, true)
    | .error _ _ => none
  else some (draft, false)

/-- Splits the buffer behind the space for a header, copies a payload to the second part, of which `maxLen` bytes
are sliced, writes the header at the end of the first part and moves past both. -/
def writeSplit (b : Octets) (header : Octets.Action Unit) (hdrLen maxLen : Nat) (payload : List UInt8) : Option Octets :=
  if b.buf.length < b.off + hdrLen + maxLen then none
  else
    match header ((Octets.withSlice (b.buf.take (b.off + hdrLen))).advance b.off) with
    | .error _ _ => none
    | .ok _ hdr =>
      let buf := hdr.buf ++ payload ++ b.buf.drop (b.off + hdrLen + payload.length)
      some ((Octets.withSlice buf).advance (b.off + hdrLen + payload.length))

/-- The path MTU probe, which takes the size of the probe for the room that is left. -/
def probe : Option Draft :=
  match draft.envelope.probeSize with
  | none => some draft
  | some probeSize =>
    if draft.envelope.ty = .short ∧ draft.framesEmpty then do
      let left ← subChecked probeSize draft.envelope.overhead
      let len ← subChecked left 1
      let (padded, pushed) ← pushFrame { draft with left, isPmtudProbe := true } (.padding len)
      if pushed then (padded.pushFrame (.ping (some probeSize))).map Prod.fst else some padded
    else some draft

def fieldAt (hdrLen length : Nat) : LengthField := ⟨draft.b.off + hdrLen - 2, length⟩

def sendsCrypto : Bool :=
  draft.cryptoStream.isFlushable && decide (draft.left > maxCryptoOverhead) && !draft.envelope.isClosing &&
    draft.envelope.isActive

def crypto : Option Draft :=
  if draft.sendsCrypto then do
    let cryptoOff := draft.cryptoStream.send.offFront
    let offLen ← varintLen cryptoOff
    let hdrLen := 1 + offLen + 2
    if draft.left < hdrLen then some draft
    else do
      let maxLen := draft.left - hdrLen
      let (send, out, _) ← draft.cryptoStream.send.emit maxLen
      let b ← writeSplit draft.b (Frame.encodeCryptoHeader cryptoOff out.length) hdrLen maxLen out
      let (next, _) ← pushFrame
        { draft with
          b
          cryptoStream := { draft.cryptoStream with send }
          fields := draft.fields ++ [draft.fieldAt hdrLen out.length] }
        (.cryptoHeader cryptoOff out.length)
      return next
  else some draft

def carriesData : Bool :=
  (draft.envelope.ty == .short || draft.envelope.ty == .zeroRTT) && !draft.envelope.isClosing && draft.envelope.isActive

/-- Datagrams take turns with streams, where there are both. -/
def doDgram : Bool :=
  let dgramsToEmit := draft.envelope.maxDgramLen.isSome
  let streamToEmit := draft.streams.hasFlushable
  let doStream := !draft.envelope.emitDgram && streamToEmit
  draft.envelope.emitDgram && dgramsToEmit || !doStream && dgramsToEmit

def startDgrams : Draft :=
  { draft with inDgrams := draft.carriesData && decide (draft.left > maxDgramOverhead) && draft.doDgram }

def dgram : Option Draft :=
  if draft.inDgrams then
    match draft.dgramSendQueue.queue.head?, draft.envelope.maxDgramLen with
    | some data, some maxDgramPayload =>
      let hdrLen := 1 + 2
      if hdrLen + data.length ≤ draft.left then do
        let b ← writeSplit draft.b (Frame.encodeDgramHeader data.length) hdrLen data.length data
        let (next, pushed) ← pushFrame
          { draft with
            b
            dgramSendQueue := draft.dgramSendQueue.pop
            fields := draft.fields ++ [draft.fieldAt hdrLen data.length] }
          (.datagramHeader data.length)
        return { next with dgramEmitted := next.dgramEmitted || pushed }
      -- This dgram frame will never fit. Let's purge it.
      else if data.length > maxDgramPayload then some { draft with dgramSendQueue := draft.dgramSendQueue.pop }
      else some { draft with inDgrams := false }
    | _, _ => some { draft with inDgrams := false }
  else some draft

def startStreams : Draft :=
  { draft with inDgrams := false
               inStreams := draft.carriesData && decide (draft.left > maxStreamOverhead) && !draft.dgramEmitted }

/-- The queue of flushable streams once the stream of `key` was changed to `stream`. -/
def requeue (streams : StreamMap) (stream : Stream) : StreamMap :=
  let key := stream.priorityKey
  if !stream.isFlushable then streams.removeFlushable key
  else if stream.incremental then (streams.removeFlushable key).insertFlushable key
  else streams

def stream : Option Draft :=
  if draft.inStreams then
    match draft.streams.peekFlushable with
    | none => some { draft with inStreams := false }
    | some key =>
      match draft.streams.get key.id with
      | none => some { draft with streams := draft.streams.removeFlushable key }
      | some stream =>
        if stream.send.isStopped then some { draft with streams := draft.streams.removeFlushable key }
        else do
          let streamOff := stream.send.offFront
          let hdrLen ← Connection.streamHeaderLen key.id streamOff
          if draft.left < hdrLen then
            some { draft with streams := draft.streams.removeFlushable stream.priorityKey }
          else do
            let maxLen := draft.left - hdrLen
            let (send, out, fin) ← stream.send.emit maxLen
            let b ← writeSplit draft.b (Frame.encodeStreamHeader key.id streamOff out.length fin) hdrLen maxLen out
            let changed := { stream with send }
            let (next, _) ← pushFrame
              { draft with b, fields := draft.fields ++ [draft.fieldAt hdrLen out.length] }
              (.streamHeader key.id streamOff out.length fin)
            return { next with
              streams := requeue (draft.streams.set key.id changed) changed
              inStreams := false }
  else some draft

/-- Writes the length of a long header once the payload is known. -/
def fillLength : Option Draft :=
  if draft.envelope.ty = .short then some draft
  else
    let payloadLen := draft.b.off - draft.envelope.payloadOffset
    let len := draft.envelope.pnLen + payloadLen + draft.envelope.cryptoOverhead
    match Octets.putVarintWithLen len payloadLengthLen
      ((Octets.withSlice draft.b.buf).advance draft.envelope.headerOffset) with
    | .error _ _ => none
    | .ok _ filled =>
      some { draft with
        b := (Octets.withSlice filled.buf).advance draft.b.off
        fields := draft.fields ++ [⟨draft.envelope.headerOffset, len⟩] }

/-- What `send_single` does to a packet: it limits the room by the congestion window, makes a probe of it, pushes
frames without data, and makes those with data turn by turn of its loops. -/
inductive Op where
  | limit (window : Nat)
  | probe
  | push (frame : Frame)
  | crypto
  | startDgrams
  | dgram
  | startStreams
  | stream

def step : Op → Option Draft
  | .limit window => some { draft with left := min draft.left window }
  | .probe => draft.probe
  | .push frame => (draft.pushFrame frame).map Prod.fst
  | .crypto => draft.crypto
  | .startDgrams => some draft.startDgrams
  | .dgram => draft.dgram
  | .startStreams => some draft.startStreams
  | .stream => draft.stream

def machine : Machine Draft Op := ⟨step⟩

end Draft

namespace Sender

/-- What `send_single` leaves once it is done with a packet. -/
def finish (sender : Sender) (draft : Draft) : Sender :=
  let sender :=
    if draft.isPmtudProbe then
      sender.updateActive fun path => { path with pmtud := path.pmtud.map (·.setInFlight true) }
    else sender
  { sender with
    emitDgram := !draft.dgramEmitted
    dgramSendQueue := draft.dgramSendQueue
    out := sender.out.drop (draft.b.off + draft.envelope.cryptoOverhead) }

/-- What happens to a connection that bears on the size of its packets. -/
inductive Op where
  | handshakeCompleted
  | handshakeConfirmed
  | peerTransportParams (maxUdpPayloadSize : Nat) (maxDatagramFrameSize : Option Nat)
  | openPath (pid : Nat)
  | closePath (pid : Nat)
  | setActive (pid : Option Nat)
  | probeAcked (pid probeSize : Nat)
  | probeLost (pid failedProbe : Nat)
  | revalidatePmtu
  | dgramSend (dcidLen : Nat) (cryptoOverhead : Option Nat) (buf : List UInt8)
  | dgramPurgeOutgoing (purged : List UInt8 → Bool)
  | sendOnPath (pid : Nat) (out : List UInt8) (credit : Option Nat)
  | sendSingle (plan : Plan) (frames : List Draft.Op)

def step (sender : Sender) : Op → Option Sender
  | .handshakeCompleted => some { sender with handshakeCompleted := true }
  | .handshakeConfirmed => some { sender with handshakeConfirmed := true }
  | .peerTransportParams maxUdpPayloadSize maxDatagramFrameSize =>
    some (sender.processPeerTransportParams maxUdpPayloadSize maxDatagramFrameSize)
  | .openPath pid => some (sender.setPath pid (some ⟨sender.recoverySize, none⟩))
  | .closePath pid => some (sender.setPath pid none)
  | .setActive activePid => some { sender with activePid }
  | .probeAcked pid probeSize => sender.probeAcked pid probeSize
  | .probeLost pid failedProbe => sender.probeLost pid failedProbe
  | .revalidatePmtu => some sender.revalidatePmtu
  | .dgramSend dcidLen cryptoOverhead buf => some (sender.dgramSend dcidLen cryptoOverhead buf).1
  | .dgramPurgeOutgoing purged => some (sender.dgramPurgeOutgoing purged)
  | .sendOnPath pid out credit => some (sender.sendOnPath pid out credit)
  | .sendSingle plan frames =>
    match Draft.start sender plan with
    | none => some sender
    | some draft => (Draft.machine.run draft frames).map sender.finish

def machine : Machine Sender Op := ⟨step⟩

end Sender

end Quiche
