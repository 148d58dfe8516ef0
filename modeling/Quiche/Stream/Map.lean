import Mathlib.Data.Finset.Insert
import Mathlib.Data.List.AList
import Quiche.Stream

namespace Quiche

/-- The transport parameters that streams and connection identifiers depend on. -/
structure TransportParams where
  initialMaxData : Nat
  initialMaxStreamDataBidiLocal : Nat
  initialMaxStreamDataBidiRemote : Nat
  initialMaxStreamDataUni : Nat
  initialMaxStreamsBidi : Nat
  initialMaxStreamsUni : Nat
  activeConnIdLimit : Nat
deriving DecidableEq

def TransportParams.default : TransportParams := ⟨0, 0, 0, 0, 0, 0, 2⟩

/-- A red-black tree of priority keys, in its order. -/
abbrev StreamQueue := List StreamPriorityKey

namespace StreamQueue

/-- Inserts in front of the first key that the new one is below. -/
def link (queue : StreamQueue) (key : StreamPriorityKey) : StreamQueue :=
  queue.takeWhile (key.cmp · != .lt) ++ key :: queue.dropWhile (key.cmp · != .lt)

def insert (queue : StreamQueue) (key : StreamPriorityKey) : StreamQueue :=
  if key ∈ queue then queue else queue.link key

def remove (queue : StreamQueue) (key : StreamPriorityKey) : StreamQueue := queue.erase key

def updatePriority (queue : StreamQueue) (old new : StreamPriorityKey) : StreamQueue :=
  if old ∈ queue then (queue.remove old).link new else queue

end StreamQueue

structure StreamMap where
  streams : AList fun _ : Nat => Stream
  collected : Finset Nat
  peerMaxStreamsBidi : Nat
  peerMaxStreamsUni : Nat
  peerOpenedStreamsBidi : Nat
  peerOpenedStreamsUni : Nat
  localMaxStreamsBidi : Nat
  localMaxStreamsBidiNext : Nat
  localMaxStreamsUni : Nat
  localMaxStreamsUniNext : Nat
  localOpenedStreamsBidi : Nat
  localOpenedStreamsUni : Nat
  flushable : StreamQueue
  readable : StreamQueue
  writable : StreamQueue
  almostFull : Finset Nat
  blocked : AList fun _ : Nat => Nat
  reset : AList fun _ : Nat => Nat × Nat
  stopped : AList fun _ : Nat => Nat
  maxStreamWindow : Nat

namespace StreamMap

def new (maxStreamsBidi maxStreamsUni maxStreamWindow : Nat) : StreamMap where
  streams := ∅
  collected := ∅
  peerMaxStreamsBidi := 0
  peerMaxStreamsUni := 0
  peerOpenedStreamsBidi := 0
  peerOpenedStreamsUni := 0
  localMaxStreamsBidi := maxStreamsBidi
  localMaxStreamsBidiNext := maxStreamsBidi
  localMaxStreamsUni := maxStreamsUni
  localMaxStreamsUniNext := maxStreamsUni
  localOpenedStreamsBidi := 0
  localOpenedStreamsUni := 0
  flushable := []
  readable := []
  writable := []
  almostFull := ∅
  blocked := ∅
  reset := ∅
  stopped := ∅
  maxStreamWindow := maxStreamWindow

def get (map : StreamMap) (id : Nat) : Option Stream := map.streams.lookup id

/-- Writes back a stream that `get_mut` or `get_or_create` handed out. -/
def set (map : StreamMap) (id : Nat) (stream : Stream) : StreamMap :=
  { map with streams := map.streams.insert id stream }

def initialLimits (id : Nat) (localParams peerParams : TransportParams) (isLocal : Bool) : Nat × Nat :=
  match isLocal, isBidi id with
  | true, true => (localParams.initialMaxStreamDataBidiLocal, peerParams.initialMaxStreamDataBidiRemote)
  | true, false => (0, peerParams.initialMaxStreamDataUni)
  | false, true => (localParams.initialMaxStreamDataBidiRemote, peerParams.initialMaxStreamDataBidiLocal)
  | false, false => (localParams.initialMaxStreamDataUni, 0)

def enforceLimits (map : StreamMap) (id : Nat) (isServer : Bool) : Except Error StreamMap :=
  let streamSequence := id >>> 2
  match isLocal id isServer, isBidi id with
  | true, true =>
    let n := max map.localOpenedStreamsBidi (streamSequence + 1)
    if n > map.peerMaxStreamsBidi then .error .streamLimit
    else .ok { map with localOpenedStreamsBidi := n }
  | true, false =>
    let n := max map.localOpenedStreamsUni (streamSequence + 1)
    if n > map.peerMaxStreamsUni then .error .streamLimit
    else .ok { map with localOpenedStreamsUni := n }
  | false, true =>
    let n := max map.peerOpenedStreamsBidi (streamSequence + 1)
    if n > map.localMaxStreamsBidi then .error .streamLimit
    else .ok { map with peerOpenedStreamsBidi := n }
  | false, false =>
    let n := max map.peerOpenedStreamsUni (streamSequence + 1)
    if n > map.localMaxStreamsUni then .error .streamLimit
    else .ok { map with peerOpenedStreamsUni := n }

def getOrCreate (map : StreamMap) (id : Nat) (localParams peerParams : TransportParams)
    (locally isServer : Bool) : Except Error (StreamMap × Stream) :=
  match map.get id with
  | some stream => .ok (map, stream)
  | none =>
    -- Stream has already been closed and garbage collected.
    if id ∈ map.collected then .error .done
    else if locally != isLocal id isServer then .error (.invalidStreamState id)
    else do
      let (maxRxData, maxTxData) := initialLimits id localParams peerParams locally
      let map ← map.enforceLimits id isServer
      let stream := Stream.new id maxRxData maxTxData (isBidi id) locally map.maxStreamWindow
      let writable :=
        if stream.isWritable then map.writable.link stream.priorityKey else map.writable
      return ({ map.set id stream with writable }, stream)

def insertReadable (map : StreamMap) (key : StreamPriorityKey) : StreamMap :=
  { map with readable := map.readable.insert key }

def removeReadable (map : StreamMap) (key : StreamPriorityKey) : StreamMap :=
  { map with readable := map.readable.remove key }

def insertWritable (map : StreamMap) (key : StreamPriorityKey) : StreamMap :=
  { map with writable := map.writable.insert key }

def removeWritable (map : StreamMap) (key : StreamPriorityKey) : StreamMap :=
  { map with writable := map.writable.remove key }

def insertFlushable (map : StreamMap) (key : StreamPriorityKey) : StreamMap :=
  { map with flushable := map.flushable.insert key }

def removeFlushable (map : StreamMap) (key : StreamPriorityKey) : StreamMap :=
  { map with flushable := map.flushable.remove key }

def hasFlushable (map : StreamMap) : Bool := !map.flushable.isEmpty

def peekFlushable (map : StreamMap) : Option StreamPriorityKey := map.flushable.head?

def updatePriority (map : StreamMap) (old new : StreamPriorityKey) : StreamMap :=
  { map with
    readable := map.readable.updatePriority old new
    writable := map.writable.updatePriority old new
    flushable := map.flushable.updatePriority old new }

def insertAlmostFull (map : StreamMap) (streamId : Nat) : StreamMap :=
  { map with almostFull := insert streamId map.almostFull }

def insertBlocked (map : StreamMap) (streamId off : Nat) : StreamMap :=
  { map with blocked := map.blocked.insert streamId off }

def removeBlocked (map : StreamMap) (streamId : Nat) : StreamMap :=
  { map with blocked := map.blocked.erase streamId }

def insertReset (map : StreamMap) (streamId errorCode finalSize : Nat) : StreamMap :=
  { map with reset := map.reset.insert streamId (errorCode, finalSize) }

def insertStopped (map : StreamMap) (streamId errorCode : Nat) : StreamMap :=
  { map with stopped := map.stopped.insert streamId errorCode }

def updatePeerMaxStreamsBidi (map : StreamMap) (limit : Nat) : StreamMap :=
  { map with peerMaxStreamsBidi := max map.peerMaxStreamsBidi limit }

def updatePeerMaxStreamsUni (map : StreamMap) (limit : Nat) : StreamMap :=
  { map with peerMaxStreamsUni := max map.peerMaxStreamsUni limit }

def updateMaxStreamsBidi (map : StreamMap) : StreamMap :=
  { map with localMaxStreamsBidi := map.localMaxStreamsBidiNext }

def maxStreamsBidiNext (map : StreamMap) : Nat := map.localMaxStreamsBidiNext

def updateMaxStreamsUni (map : StreamMap) : StreamMap :=
  { map with localMaxStreamsUni := map.localMaxStreamsUniNext }

def maxStreamsUniNext (map : StreamMap) : Nat := map.localMaxStreamsUniNext

def peerStreamsLeftBidi (map : StreamMap) : Option Nat := subChecked map.peerMaxStreamsBidi map.localOpenedStreamsBidi

def peerStreamsLeftUni (map : StreamMap) : Option Nat := subChecked map.peerMaxStreamsUni map.localOpenedStreamsUni

/-- Drops a completed stream; `none` is the `unwrap` of a stream that is not there. The
credit saturates at the largest `u64`. -/
def collect (map : StreamMap) (streamId : Nat) (isLocal : Bool) : Option StreamMap := do
  let credit limit := min (limit + 1) (2 ^ 64 - 1)
  let stream ← map.get streamId
  return {
    map with
    localMaxStreamsBidiNext :=
      if !isLocal && isBidi streamId then credit map.localMaxStreamsBidiNext
      else map.localMaxStreamsBidiNext
    localMaxStreamsUniNext :=
      if !isLocal && !isBidi streamId then credit map.localMaxStreamsUniNext
      else map.localMaxStreamsUniNext
    streams := map.streams.erase streamId
    readable := map.readable.remove stream.priorityKey
    writable := map.writable.remove stream.priorityKey
    flushable := map.flushable.remove stream.priorityKey
    collected := insert streamId map.collected }

/-- What the callers of `collect` do, once they know whether the stream can go. -/
def collectIf (map : StreamMap) (streamId : Nat) (isLocal collects : Bool) : Option StreamMap :=
  if collects then map.collect streamId isLocal else some map

/-- Whether a limit is to be announced; `none` is the underflow panic. -/
def shouldUpdate (limit limitNext opened : Nat) : Option Bool :=
  if limitNext ≠ limit then (subChecked limit opened).map fun left => decide (limitNext / 2 > left)
  else some false

def shouldUpdateMaxStreamsBidi (map : StreamMap) : Option Bool :=
  shouldUpdate map.localMaxStreamsBidi map.localMaxStreamsBidiNext map.peerOpenedStreamsBidi

def shouldUpdateMaxStreamsUni (map : StreamMap) : Option Bool :=
  shouldUpdate map.localMaxStreamsUni map.localMaxStreamsUniNext map.peerOpenedStreamsUni

section Creation

variable {map next : StreamMap} {id : Nat} {isServer : Bool}

theorem enforceLimits_cases (enforced : map.enforceLimits id isServer = .ok next) :
    ∃ peerBidi peerUni localBidi localUni, next = { map with
      peerOpenedStreamsBidi := peerBidi
      peerOpenedStreamsUni := peerUni
      localOpenedStreamsBidi := localBidi
      localOpenedStreamsUni := localUni } := by
  rw [enforceLimits] at enforced
  split at enforced <;> dsimp only at enforced <;> split at enforced <;> cases enforced <;>
    exact ⟨_, _, _, _, rfl⟩

theorem getOrCreate_cases {localParams peerParams : TransportParams} {locally : Bool} {stream : Stream}
    (handed : map.getOrCreate id localParams peerParams locally isServer = .ok (next, stream)) :
    next = map ∧ map.get id = some stream ∨ map.get id = none ∧ id ∉ map.collected ∧ locally = isLocal id isServer ∧
        ∃ counted writable, map.enforceLimits id isServer = .ok counted ∧
          stream = .new id (initialLimits id localParams peerParams locally).1
            (initialLimits id localParams peerParams locally).2 (isBidi id) locally counted.maxStreamWindow ∧
          next = { counted.set id stream with writable } := by
  rw [getOrCreate] at handed
  split at handed
  · rename_i found
    cases handed
    exact .inl ⟨rfl, found⟩
  rename_i absent
  split at handed
  · cases handed
  rename_i uncollected
  split at handed
  · cases handed
  rename_i requested
  cases enforced : map.enforceLimits id isServer with
  | error error =>
    rw [enforced] at handed
    cases handed
  | ok counted =>
    rw [enforced] at handed
    cases handed
    exact .inr ⟨absent, uncollected, by simpa using requested, counted, _, rfl, rfl, rfl⟩

end Creation

end StreamMap

end Quiche
