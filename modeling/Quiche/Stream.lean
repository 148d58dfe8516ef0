import Quiche.Stream.RecvBuf
import Quiche.Stream.SendBuf

namespace Quiche

def defaultUrgency : UInt8 := 127

/-- `is_local`: the stream was created by this endpoint. -/
def isLocal (streamId : Nat) (isServer : Bool) : Bool := streamId &&& 0x1 == isServer.toNat

def isBidi (streamId : Nat) : Bool := streamId &&& 0x2 == 0

/-- The place of a stream in the scheduling queues. The links of the source are the
membership in the queues of the map. -/
structure StreamPriorityKey where
  urgency : UInt8
  incremental : Bool
  id : Nat
deriving DecidableEq

namespace StreamPriorityKey

def default (id : Nat) : StreamPriorityKey := ⟨defaultUrgency, true, id⟩

def cmp (key other : StreamPriorityKey) : Ordering :=
  -- Ignore priority if ID matches.
  if key.id = other.id then .eq
  else if key.urgency ≠ other.urgency then compare key.urgency other.urgency
  else if !key.incremental && !other.incremental then compare key.id other.id
  else if key.incremental && !other.incremental then .gt
  else if !key.incremental && other.incremental then .lt
  -- Two incremental streams: the one that is there already goes first.
  else .gt

end StreamPriorityKey

structure Stream where
  recv : RecvBuf
  send : SendBuf
  sendLowat : Nat
  bidi : Bool
  isLocal : Bool
  urgency : UInt8
  incremental : Bool
  priorityKey : StreamPriorityKey
deriving DecidableEq

namespace Stream

def new (id maxRxData maxTxData : Nat) (bidi isLocal : Bool) (maxWindow : Nat) : Stream where
  recv := .new maxRxData maxWindow
  send := .new maxTxData
  sendLowat := 1
  bidi := bidi
  isLocal := isLocal
  urgency := defaultUrgency
  incremental := true
  priorityKey := .default id

def isReadable (stream : Stream) : Bool := stream.recv.ready

def isWritable (stream : Stream) : Bool := !stream.send.isShutdown && !stream.send.isFin &&
    stream.send.offBack + stream.sendLowat < stream.send.maxOff

def isFlushable (stream : Stream) : Bool :=
  let offFront := stream.send.offFront
  !stream.send.isEmpty && offFront < stream.send.offBack && offFront < stream.send.maxOff

def isComplete (stream : Stream) : Bool :=
  match stream.bidi, stream.isLocal with
  | true, _ => stream.recv.isFin && stream.send.isComplete
  | false, true => stream.send.isComplete
  | false, false => stream.recv.isFin

end Stream

end Quiche
