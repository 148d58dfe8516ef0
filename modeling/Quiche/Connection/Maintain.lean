import Quiche.Connection.Control

namespace Quiche

open Data

/-- Where a change of a stream comes from. -/
inductive Stream.Kind where
  | call
  | write
  | raise (limit : Nat)
  | cut
  | emit
  | ack
  | lose

def Shutdown.kind : Shutdown → Stream.Kind
  | .read => .call
  | .write => .cut

/-- What a connection does to one of its streams, apart from its priority. -/
inductive Stream.Change (old : Stream) : Stream.Kind → Stream → Prop where
  | same (kind : Stream.Kind) : Change old kind old
  | received (data : RangeBuf) (recv : RecvBuf) (result : Except Error Unit)
      (written : old.recv.write data = some (recv, result)) : Change old .call { old with recv }
  | reset (errorCode finalSize : Nat) (recv : RecvBuf) (result : Except Error Nat)
      (done : old.recv.reset errorCode finalSize = some (recv, result)) : Change old .call { old with recv }
  | read (cap : Nat) (recv : RecvBuf) (result : Except Error (List UInt8 × Bool))
      (emitted : old.recv.emit cap = some (recv, result)) : Change old .call { old with recv }
  | shutRead (recv : RecvBuf) (done : old.recv.shutdown = (recv, .ok ())) : Change old .call { old with recv }
  | tuned (flowControl : FlowControl) : Change old .call { old with recv := { old.recv with flowControl } }
  | wrote (bytes : List UInt8) (fin : Bool) (send : SendBuf) (result : Except Error Nat) (blockedAt : Option Nat)
      (written : old.send.write bytes fin = some (send, result)) :
      Change old .write { old with send := { send with blockedAt } }
  | appended (bytes : List UInt8) (cap : Nat) (fin : Bool) (send : SendBuf)
      (result : Except Error (Nat × Option (List UInt8))) (blockedAt : Option Nat)
      (written : old.send.appendBuf bytes cap fin = some (send, result)) :
      Change old .write { old with send := { send with blockedAt } }
  | raised (limit : Nat) : Change old (.raise limit) { old with send := old.send.updateMaxData limit }
  | stopped (errorCode : Nat) (send : SendBuf) (result : Except Error (Nat × Nat))
      (done : old.send.stop errorCode = some (send, result)) : Change old .cut { old with send }
  | shutWrite (send : SendBuf) (result : Except Error (Nat × Nat)) (done : old.send.shutdown = some (send, result)) :
      Change old .cut { old with send }
  | emitted (outLen : Nat) (send : SendBuf) (out : List UInt8) (fin : Bool)
      (emitted : old.send.emit outLen = some (send, out, fin)) : Change old .emit { old with send }
  | acked (offset length : Nat) (send : SendBuf) (dropped : old.send.ackAndDrop offset length = some send) :
      Change old .ack { old with send }
  | lost (offset length : Nat) (send : SendBuf) (requeued : old.send.retransmit offset length = some send) :
      Change old .lose { old with send }

theorem Stream.Change.key_eq {old new : Stream} {kind : Stream.Kind} (change : old.Change kind new) :
    new.priorityKey = old.priorityKey := by
  cases change <;> rfl

def Frame.concerns : Frame → Option Nat
  | .streamHeader streamId _ _ _ => some streamId
  | .resetStream streamId _ _ => some streamId
  | _ => none

def maySend (id : Nat) (isServer : Bool) : Bool := isBidi id || isLocal id isServer

theorem maySend_of_not {id : Nat} {isServer : Bool} (allowed : ¬ (!isBidi id && !isLocal id isServer) = true) :
    maySend id isServer = true := by
  rw [maySend]
  revert allowed
  cases isBidi id <;> cases isLocal id isServer <;> decide

theorem ite_of {State : Type} {invariant : State → Prop} {condition : Prop} [Decidable condition]
    {left right : State} (worked : invariant left) (idle : invariant right) :
    invariant (if condition then left else right) := by
  split
  · exact worked
  · exact idle

namespace StreamMap

/-- The work that an invariant has to withstand: for peers with these parameters, frames are
sent on the streams in `sends`, only those in `may` are collected, and a stream only changes
as it is allowed to. -/
structure Scope where
  peers : TransportParams → Prop := fun _ => True
  sends : Nat → Prop := fun _ => True
  may : Nat → Prop := fun _ => True
  allows : Stream.Kind → Nat → Prop := fun _ _ => True

/-- What a connection does to its streams, within the scope, keeps the invariant. -/
structure Maintains (isServer : Bool) (scope : Scope) (invariant : StreamMap → Prop) : Prop where
  open_ {map next : StreamMap} {id : Nat} {localParams peerParams : TransportParams} {locally : Bool}
    {stream : Stream} : invariant map → scope.peers peerParams →
    map.getOrCreate id localParams peerParams locally isServer = .ok (next, stream) → invariant next
  change {map : StreamMap} {id : Nat} {kind : Stream.Kind} {old new : Stream} : invariant map →
    scope.allows kind id → map.get id = some old → old.Change kind new → invariant (map.set id new)
  prioritize {map : StreamMap} {id : Nat} {old : Stream} (urgency : UInt8) (incremental : Bool) :
    invariant map → map.get id = some old →
    invariant ((map.set id { old with urgency, incremental, priorityKey := ⟨urgency, incremental, id⟩ })
      |>.updatePriority old.priorityKey ⟨urgency, incremental, id⟩)
  readable {map : StreamMap} (queue : StreamQueue) : invariant map → invariant { map with readable := queue }
  writable {map : StreamMap} (queue : StreamQueue) : invariant map → invariant { map with writable := queue }
  almostFull {map : StreamMap} (ids : Finset Nat) : invariant map → invariant { map with almostFull := ids }
  blocked {map : StreamMap} (limits : AList fun _ : Nat => Nat) : invariant map →
    invariant { map with blocked := limits }
  flush {map : StreamMap} {id : Nat} {stream : Stream} : invariant map → map.get id = some stream →
    scope.sends id → invariant (map.insertFlushable stream.priorityKey)
  reset {map : StreamMap} {id : Nat} (errorCode finalSize : Nat) : invariant map → scope.sends id →
    invariant (map.insertReset id errorCode finalSize)
  stopped {map : StreamMap} (id errorCode : Nat) : invariant map → invariant (map.insertStopped id errorCode)
  collect {map next : StreamMap} {id : Nat} {stream : Stream} : invariant map → scope.may id →
    map.get id = some stream → map.collect id stream.isLocal = some next → invariant next
  peerMax {map : StreamMap} (bidi uni : Nat) : invariant map →
    invariant { map with peerMaxStreamsBidi := bidi, peerMaxStreamsUni := uni }

/-- What sending a packet does to the flushable streams keeps the invariant. -/
structure Unlinks (invariant : StreamMap → Prop) : Prop where
  reflush {map : StreamMap} {key : StreamPriorityKey} {stream : Stream} : invariant map →
    key ∈ map.flushable → map.get key.id = some stream →
    invariant ((map.removeFlushable stream.priorityKey).insertFlushable stream.priorityKey)
  unflush {map : StreamMap} (key : StreamPriorityKey) : invariant map → invariant (map.removeFlushable key)

/-- Sending a packet that may carry a frame of any kind keeps the invariant. -/
structure Sheds (invariant : StreamMap → Prop) : Prop extends Unlinks invariant where
  unreset {map : StreamMap} (id : Nat) : invariant map → invariant (map.removeReset id)
  unstopped {map : StreamMap} (id : Nat) : invariant map → invariant (map.removeStopped id)
  commit {map : StreamMap} (bidi uni : Nat) : invariant map →
    invariant { map with localMaxStreamsBidi := bidi, localMaxStreamsUni := uni }

namespace Maintains

variable {isServer : Bool} {scope : Scope} {invariant : StreamMap → Prop} {map : StreamMap}

section

variable (maintains : Maintains isServer scope invariant)

include maintains

theorem insertReadable (key : StreamPriorityKey)
    (holds : invariant map) : invariant (map.insertReadable key) := maintains.readable _ holds

theorem removeReadable (key : StreamPriorityKey)
    (holds : invariant map) : invariant (map.removeReadable key) := maintains.readable _ holds

theorem insertAlmostFull (id : Nat)
    (holds : invariant map) : invariant (map.insertAlmostFull id) := maintains.almostFull _ holds

theorem insertWritable (key : StreamPriorityKey)
    (holds : invariant map) : invariant (map.insertWritable key) := maintains.writable _ holds

theorem removeWritable (key : StreamPriorityKey)
    (holds : invariant map) : invariant (map.removeWritable key) := maintains.writable _ holds

end

end Maintains

/-- The stream was stored already, or it is new and its id was never collected. -/
structure Opened (map next : StreamMap) (id : Nat) (stream : Stream) : Prop where
  origin : map.get id = some stream ∨ map.get id = none ∧ id ∉ map.collected ∧
    ∃ maxRxData maxTxData bidi isLocal window, stream = .new id maxRxData maxTxData bidi isLocal window
  put : Put map.streams id stream next.streams
  collected : next.collected = map.collected
  flushable : next.flushable = map.flushable
  reset : next.reset = map.reset
  stopped : next.stopped = map.stopped

variable {localParams peerParams : TransportParams} {locally isServer : Bool}

theorem getOrCreate_opened {map next : StreamMap} {id : Nat} {stream : Stream}
    (handed : map.getOrCreate id localParams peerParams locally isServer = .ok (next, stream)) :
    Opened map next id stream := by
  rcases getOrCreate_cases handed with
    ⟨rfl, found⟩ | ⟨absent, uncollected, _, counted, writable, enforced, rfl, rfl⟩
  · exact ⟨.inl found, put_self found, rfl, rfl, rfl, rfl⟩
  · obtain ⟨_, _, _, _, rfl⟩ := enforceLimits_cases enforced
    exact ⟨.inr ⟨absent, uncollected, _, _, _, _, _, rfl⟩, put_insert map.streams id _, rfl, rfl, rfl, rfl⟩

theorem getOrCreate_get {map next : StreamMap} {id : Nat} {stream : Stream}
    (handed : map.getOrCreate id localParams peerParams locally isServer = .ok (next, stream)) :
    next.get id = some stream := by
  rw [get, (getOrCreate_opened handed).put, if_pos rfl]

end StreamMap

namespace Connection

open StreamMap

variable {conn next : Connection} {scope : Scope} {invariant : StreamMap → Prop} {id : Nat}
  (maintains : Maintains conn.isServer scope invariant)

include maintains

section Frames

theorem processStream_maintains {data : RangeBuf}
    (peers : scope.peers conn.peerTransportParams) (allowed : scope.allows .call id)
    (holds : invariant conn.streams) (processed : conn.processStream id data = some (next, .ok ())) :
    invariant next.streams := by
  rw [processStream] at processed
  split at processed
  · cases processed
  obtain ⟨room, _, processed⟩ := Option.bind_eq_some_iff.mp processed
  split at processed
  · cases processed
    exact holds
  · cases processed
  rename_i streams old handed
  dsimp only at processed
  split at processed
  · cases processed
  obtain ⟨⟨recv, result⟩, written, processed⟩ := Option.bind_eq_some_iff.mp processed
  have changed : invariant (streams.set id { old with recv }) :=
    maintains.change (maintains.open_ holds peers handed) allowed (getOrCreate_get handed)
      (.received data recv result written)
  have queued := maintains.readable ((streams.set id { old with recv }).readable.insert old.priorityKey) changed
  cases result with
  | error error => cases processed
  | ok _ =>
    dsimp only at processed
    split at processed
    · obtain ⟨credited, added, processed⟩ := Option.bind_eq_some_iff.mp processed
      cases processed
      rw [(addConsumed_spec added).2]
      exact ite_of queued changed
    · cases processed
      exact ite_of queued changed

theorem processResetStream_maintains {errorCode finalSize : Nat} (peers : scope.peers conn.peerTransportParams)
    (allowed : scope.allows .call id) (holds : invariant conn.streams)
    (processed : conn.processResetStream id errorCode finalSize = some (next, .ok ())) : invariant next.streams := by
  rw [processResetStream] at processed
  split at processed
  · cases processed
  obtain ⟨room, _, processed⟩ := Option.bind_eq_some_iff.mp processed
  split at processed
  · cases processed
    exact holds
  · cases processed
  rename_i streams old handed
  obtain ⟨⟨recv, result⟩, reset, processed⟩ := Option.bind_eq_some_iff.mp processed
  have changed : invariant (streams.set id { old with recv }) :=
    maintains.change (maintains.open_ holds peers handed) allowed (getOrCreate_get handed)
      (.reset errorCode finalSize recv result reset)
  cases result with
  | error error => cases processed
  | ok delta =>
    dsimp only at processed
    split at processed
    · cases processed
    cases processed
    exact ite_of (maintains.readable _ changed) changed

theorem processStopSending_maintains {errorCode : Nat} (lawful : ∀ id, maySend id conn.isServer = true → scope.sends id)
    (peers : scope.peers conn.peerTransportParams) (cuts : scope.allows .cut id)
    (holds : invariant conn.streams) (processed : conn.processStopSending id errorCode = some (next, .ok ())) :
    invariant next.streams := by
  rw [processStopSending] at processed
  split at processed
  · cases processed
  rename_i allowed
  have sendable : scope.sends id := lawful id (maySend_of_not (by rwa [Bool.and_comm] at allowed))
  split at processed
  · cases processed
    exact holds
  · cases processed
  rename_i streams old handed
  obtain ⟨⟨send, result⟩, stopped, processed⟩ := Option.bind_eq_some_iff.mp processed
  have opened := maintains.open_ holds peers handed
  cases result with
  | error error =>
    cases processed
    exact opened
  | ok sizes =>
    cases processed
    have changed : invariant (streams.set id { old with send }) :=
      maintains.change opened cuts (getOrCreate_get handed) (.stopped errorCode send (.ok sizes) stopped)
    have reset := maintains.reset errorCode sizes.1 changed sendable
    exact ite_of reset (maintains.writable _ reset)

theorem processMaxStreamData_maintains {limit : Nat} (lawful : ∀ id, maySend id conn.isServer = true → scope.sends id)
    (peers : scope.peers conn.peerTransportParams) (raises : scope.allows (.raise limit) id)
    (holds : invariant conn.streams) (processed : conn.processMaxStreamData id limit = (next, .ok ())) :
    invariant next.streams := by
  rw [processMaxStreamData] at processed
  split at processed
  · cases processed
  rename_i allowed
  have sendable : scope.sends id := lawful id (maySend_of_not allowed)
  split at processed
  · cases processed
    exact holds
  · cases processed
  rename_i streams old handed
  cases processed
  have changed : invariant (streams.set id { old with send := old.send.updateMaxData limit }) :=
    maintains.change (maintains.open_ holds peers handed) raises (getOrCreate_get handed) (.raised limit)
  have linked := maintains.flush changed (get_set ..) sendable
  dsimp only
  split
  · exact maintains.writable _ (ite_of linked changed)
  · exact ite_of linked changed

theorem processPeerTransportParams_maintains {peerParams : TransportParams} {cwinAvailable : Nat}
    (holds : invariant conn.streams)
    (processed : conn.processPeerTransportParams peerParams cwinAvailable = some (next, .ok ())) :
    invariant next.streams := by
  obtain ⟨updated, computed, finished⟩ := Option.bind_eq_some_iff.mp processed
  obtain ⟨_, frame⟩ := updateTxCap_spec computed
  subst frame
  dsimp only at finished
  split at finished
  · cases finished
  · cases finished
    exact maintains.peerMax _ _ (maintains.peerMax _ _ holds)

end Frames

section Calls

theorem collectIf_maintains {map last : StreamMap} {stream : Stream} {complete : Bool}
    (holds : invariant map) (mayCollect : scope.may id)
    (found : map.get id = some stream) (collected : map.collectIf id stream.isLocal complete = some last) :
    invariant last := by
  rw [collectIf] at collected
  split at collected
  · exact maintains.collect holds mayCollect found collected
  · cases collected
    exact holds

theorem streamRecv_maintains {cap : Nat} {result : Except Error (List UInt8 × Bool)} (reads : scope.allows .call id)
    (holds : invariant conn.streams) (mayCollect : scope.may id)
    (received : conn.streamRecv id cap = some (next, result)) : invariant next.streams := by
  rw [streamRecv] at received
  split at received
  · cases received
    exact holds
  split at received
  · cases received
    exact holds
  rename_i old found
  split at received
  · cases received
    exact holds
  obtain ⟨⟨recv, output⟩, emitted, received⟩ := Option.bind_eq_some_iff.mp received
  have changed : invariant (conn.streams.set id { old with recv }) :=
    maintains.change holds reads found (.read cap recv output emitted)
  cases output with
  | error error =>
    obtain ⟨streams, collected, received⟩ := Option.bind_eq_some_iff.mp received
    cases received
    exact maintains.removeReadable _ (collectIf_maintains maintains changed mayCollect (get_set ..) collected)
  | ok output =>
    obtain ⟨almostFull, _, received⟩ := Option.bind_eq_some_iff.mp received
    obtain ⟨streams, collected, received⟩ := Option.bind_eq_some_iff.mp received
    obtain ⟨credited, added, received⟩ := Option.bind_eq_some_iff.mp received
    cases received
    rw [(addConsumed_spec added).2]
    have filled : invariant (if almostFull then (conn.streams.set id { old with recv }).insertAlmostFull id
        else conn.streams.set id { old with recv }) := ite_of (maintains.insertAlmostFull id changed) changed
    have present : ∀ {map : StreamMap}, map.streams = (conn.streams.set id { old with recv }).streams →
        map.get id = some { old with recv } := fun streams => by
      rw [StreamMap.get, streams]
      exact get_set conn.streams id _
    have kept := collectIf_maintains maintains (ite_of filled (maintains.removeReadable old.priorityKey filled))
      mayCollect
      (present (by
        simp only [apply_ite StreamMap.streams, removeReadable_streams, insertAlmostFull_streams, ite_self]))
      collected
    exact ite_of (maintains.insertReadable _ (maintains.removeReadable _ kept)) kept

section

variable (lawful : ∀ id, maySend id conn.isServer = true → scope.sends id)

include lawful

section

variable (peers : scope.peers conn.peerTransportParams)

include peers

theorem streamDoSend_maintains {Result : Type} {len : Nat} {fin : Bool}
    {writeFn : SendBuf → Nat → Bool → Option (SendBuf × Except Error (Nat × Result))} {result : Except Error Result}
    (changes : scope.allows .write id) (holds : invariant conn.streams)
    (writes : ∀ {old : Stream} {cap fin send output}, writeFn old.send cap fin = some (send, output) →
      ∀ blockedAt, old.Change .write { old with send := { send with blockedAt } })
    (sent : conn.streamDoSend id len fin writeFn = some (next, result)) : invariant next.streams := by
  rw [streamDoSend] at sent
  split at sent
  · cases sent
    exact holds
  rename_i allowed
  have sendable : scope.sends id := lawful id (maySend_of_not allowed)
  obtain ⟨left, _, sent⟩ := Option.bind_eq_some_iff.mp sent
  dsimp only at sent
  split at sent
  · cases sent
    exact holds
  rename_i streams old handed
  have opened := maintains.open_ holds peers handed
  split at sent
  · cases sent
    exact ite_of (maintains.insertWritable _ opened) opened
  obtain ⟨⟨send, output⟩, written, sent⟩ := Option.bind_eq_some_iff.mp sent
  have changed : ∀ blockedAt, invariant (streams.set id { old with send := { send with blockedAt } }) :=
    fun blockedAt => maintains.change opened changes (getOrCreate_get handed) (writes written blockedAt)
  cases output with
  | error error =>
    cases sent
    exact maintains.removeWritable _ (changed send.blockedAt)
  | ok output =>
    obtain ⟨txCap, _, sent⟩ := Option.bind_eq_some_iff.mp sent
    dsimp only at sent
    have blocked : ∀ isBlocked, invariant (updateBlocked streams id { old with send } isBlocked) := by
      intro isBlocked
      rw [updateBlocked]
      split
      · dsimp only
        split
        · exact maintains.blocked _ (changed _)
        · exact changed send.blockedAt
      · exact maintains.blocked _ (changed _)
    have present : ∀ isBlocked, ∃ stream,
        (updateBlocked streams id { old with send } isBlocked).get id = some stream ∧
          stream.priorityKey = old.priorityKey := by
      intro isBlocked
      rw [updateBlocked]
      split
      · dsimp only
        split
        · exact ⟨_, get_set .., rfl⟩
        · exact ⟨_, get_set .., rfl⟩
      · exact ⟨_, get_set .., rfl⟩
    have linked : ∀ isBlocked, invariant
        ((updateBlocked streams id { old with send } isBlocked).insertFlushable old.priorityKey) := by
      intro isBlocked
      obtain ⟨stream, found, key⟩ := present isBlocked
      have flushed := maintains.flush (blocked isBlocked) found sendable
      rwa [key] at flushed
    have queued : ∀ (isBlocked flushes writable full : Bool), invariant (
        let flushed :=
          if flushes then (updateBlocked streams id { old with send } isBlocked).insertFlushable old.priorityKey
          else updateBlocked streams id { old with send } isBlocked
        if !writable then flushed.removeWritable old.priorityKey
        else if full then flushed.insertWritable old.priorityKey else flushed) := by
      intro isBlocked flushes writable full
      have flushed : invariant (if flushes then
          (updateBlocked streams id { old with send } isBlocked).insertFlushable old.priorityKey
          else updateBlocked streams id { old with send } isBlocked) := ite_of (linked isBlocked) (blocked isBlocked)
      exact ite_of (maintains.removeWritable _ flushed) (ite_of (maintains.insertWritable _ flushed) flushed)
    split at sent
    · cases sent
      exact queued _ _ _ _
    · cases sent
      exact ite_of (maintains.insertWritable _ (maintains.removeWritable _ (queued _ _ _ _))) (queued _ _ _ _)

theorem streamSend_maintains {buf : List UInt8} {fin : Bool} {result : Except Error Nat}
    (changes : scope.allows .write id) (holds : invariant conn.streams)
    (sent : conn.streamSend id buf fin = some (next, result)) : invariant next.streams := by
  refine streamDoSend_maintains maintains lawful peers changes holds (fun written blockedAt => ?_) sent
  obtain ⟨⟨send, output⟩, writing, same⟩ := Option.bind_eq_some_iff.mp written
  cases same
  exact .wrote _ _ _ _ blockedAt writing

theorem streamSendZc_maintains {buf : List UInt8} {limit : Option Nat} {fin : Bool}
    {result : Except Error (Nat × Option (List UInt8))}
    (changes : scope.allows .write id)
    (holds : invariant conn.streams) (sent : conn.streamSendZc id buf limit fin = some (next, result)) :
    invariant next.streams := by
  refine streamDoSend_maintains maintains lawful peers changes holds (fun written blockedAt => ?_) sent
  obtain ⟨⟨send, output⟩, writing, same⟩ := Option.bind_eq_some_iff.mp written
  cases same
  exact .appended _ _ _ _ _ blockedAt writing

end

end

theorem streamPriority_maintains {urgency : UInt8} {incremental : Bool} (peers : scope.peers conn.peerTransportParams)
    (holds : invariant conn.streams) : invariant (conn.streamPriority id urgency incremental).1.streams := by
  rw [streamPriority]
  split
  · exact holds
  · exact holds
  rename_i streams old handed
  have opened := maintains.open_ holds peers handed
  dsimp only
  split
  · exact opened
  · exact maintains.prioritize urgency incremental opened (getOrCreate_get handed)

theorem streamShutdown_maintains {direction : Shutdown} {err cwinAvailable : Nat} {result : Except Error Unit}
    (lawful : ∀ id, maySend id conn.isServer = true → scope.sends id) (allowed : scope.allows direction.kind id)
    (holds : invariant conn.streams) (shut : conn.streamShutdown id direction err cwinAvailable = some (next, result)) :
    invariant next.streams := by
  cases direction with
  | read =>
    rw [streamShutdown] at shut
    dsimp only at shut
    split at shut
    · cases shut
      exact holds
    split at shut
    · cases shut
      exact holds
    rename_i old found
    split at shut
    · cases shut
      exact holds
    rename_i recv done
    cases shut
    have changed : invariant (conn.streams.set id { old with recv }) :=
      maintains.change holds allowed found (.shutRead recv done)
    exact maintains.removeReadable _ (ite_of changed (maintains.stopped id err changed))
  | write =>
    rw [streamShutdown] at shut
    dsimp only at shut
    split at shut
    · cases shut
      exact holds
    rename_i local_
    have sendable : scope.sends id := lawful id (maySend_of_not (by rwa [Bool.and_comm] at local_))
    split at shut
    · cases shut
      exact holds
    rename_i old found
    obtain ⟨⟨send, result⟩, done, shut⟩ := Option.bind_eq_some_iff.mp shut
    have changed : invariant (conn.streams.set id { old with send }) :=
      maintains.change holds allowed found (.shutWrite send result done)
    cases result with
    | error error =>
      cases shut
      exact holds
    | ok sizes =>
      obtain ⟨updated, capped, shut⟩ := Option.bind_eq_some_iff.mp shut
      cases shut
      rw [(updateTxCap_spec capped).2]
      exact maintains.removeWritable _ (maintains.reset err sizes.1 changed sendable)

end Calls

section Packets

theorem ackedStream_maintains {offset length : Nat} (acks : scope.allows .ack id)
    (holds : invariant conn.streams) (mayCollect : scope.may id)
    (acked : conn.ackedStream id offset length = some next) : invariant next.streams := by
  rw [ackedStream] at acked
  split at acked
  · cases acked
    exact holds
  rename_i old found
  obtain ⟨send, dropped, acked⟩ := Option.bind_eq_some_iff.mp acked
  obtain ⟨streams, collected, acked⟩ := Option.bind_eq_some_iff.mp acked
  cases acked
  have changed : invariant (conn.streams.set id { old with send }) :=
    maintains.change holds acks found (.acked offset length send dropped)
  exact collectIf_maintains maintains changed mayCollect (get_set ..) collected

theorem ackedResetStream_maintains (holds : invariant conn.streams) (mayCollect : scope.may id)
    (acked : conn.ackedResetStream id = some next) : invariant next.streams := by
  rw [ackedResetStream] at acked
  split at acked
  · cases acked
    exact holds
  rename_i old found
  obtain ⟨streams, collected, acked⟩ := Option.bind_eq_some_iff.mp acked
  cases acked
  exact collectIf_maintains maintains holds mayCollect found collected

theorem lostStream_maintains {lost : StreamHeader} (loses : scope.allows .lose lost.streamId)
    (holds : invariant conn.streams) (sendable : scope.sends lost.streamId)
    (retransmitted : conn.lostStream lost = some next) : invariant next.streams := by
  rw [lostStream] at retransmitted
  split at retransmitted
  · cases retransmitted
    exact holds
  rename_i old found
  obtain ⟨send, requeued, retransmitted⟩ := Option.bind_eq_some_iff.mp retransmitted
  cases retransmitted
  have changed : invariant (conn.streams.set lost.streamId { old with send }) :=
    maintains.change holds loses found (.lost lost.offset lost.length send requeued)
  have flushed := maintains.flush changed (get_set ..) sendable
  exact ite_of flushed changed

variable {left : Nat} {sent : Option StreamHeader} {frame : Option Frame}

theorem flushStreams_maintains {fuel : Nat} {streams result : StreamMap} (unlinks : Unlinks invariant)
    (emits : ∀ id, scope.allows .emit id) (holds : invariant streams)
    (flushed : flushStreams fuel streams left = some (result, sent)) : invariant result := by
  induction fuel generalizing streams with
  | zero =>
    rw [flushStreams] at flushed
    split at flushed
    · cases flushed
      exact holds
    · cases flushed
  | succ fuel ih =>
    rw [flushStreams] at flushed
    split at flushed
    · cases flushed
      exact holds
    rename_i key front
    dsimp only at flushed
    split at flushed
    · exact ih (unlinks.unflush key holds) flushed
    rename_i old found
    split at flushed
    · exact ih (unlinks.unflush key holds) flushed
    obtain ⟨hdrLen, _, flushed⟩ := Option.bind_eq_some_iff.mp flushed
    split at flushed
    · exact ih (unlinks.unflush old.priorityKey holds) flushed
    obtain ⟨⟨send, out, fin⟩, emitted, flushed⟩ := Option.bind_eq_some_iff.mp flushed
    cases flushed
    have changed : invariant (streams.set key.id { old with send }) :=
      maintains.change holds (emits key.id) found (.emitted (left - hdrLen) send out fin emitted)
    have requeued := unlinks.reflush changed (List.mem_of_head? front) (get_set ..)
    exact ite_of (unlinks.unflush old.priorityKey changed) (ite_of requeued changed)

theorem sendStream_maintains (unlinks : Unlinks invariant)
    (emits : ∀ id, scope.allows .emit id) (holds : invariant conn.streams)
    (sending : conn.sendStream left = some (next, sent)) : invariant next.streams := by
  rw [sendStream] at sending
  split at sending
  · obtain ⟨⟨streams, header⟩, flushed, sending⟩ := Option.bind_eq_some_iff.mp sending
    cases sending
    exact flushStreams_maintains maintains unlinks emits holds flushed
  · cases sending
    exact holds

theorem ackedFrame_maintains {frame : Frame} (holds : invariant conn.streams)
    (settles : ∀ id, frame.concerns = some id → scope.may id ∧ scope.allows .ack id)
    (acked : conn.ackedFrame frame = some next) : invariant next.streams := by
  rw [ackedFrame.eq_def] at acked
  split at acked
  · exact ackedStream_maintains maintains (settles _ rfl).2 holds (settles _ rfl).1 acked
  · exact ackedResetStream_maintains maintains holds (settles _ rfl).1 acked
  · cases acked
    exact holds

theorem lostFrame_maintains {frame : Frame} (holds : invariant conn.streams)
    (settles : ∀ id, frame.concerns = some id → scope.sends id ∧ scope.allows .lose id)
    (lost : conn.lostFrame frame = some next) : invariant next.streams := by
  rw [lostFrame.eq_def] at lost
  split at lost
  · exact lostStream_maintains maintains (settles _ rfl).2 holds (settles _ rfl).1 lost
  · split at lost
    · cases lost
      exact maintains.reset _ _ holds (settles _ rfl).1
    · cases lost
      exact holds
  · split at lost
    · cases lost
      exact maintains.insertAlmostFull _ holds
    · cases lost
      exact holds
  · cases lost
    exact holds
  · cases lost
    exact holds

omit maintains in
theorem sendStopSending_spec (sent : conn.sendStopSending id left = some (next, frame)) :
    next = conn ∧ frame = none ∨ ∃ errorCode, conn.streams.stopped.lookup id = some errorCode ∧
      frame = some (.stopSending id errorCode) ∧ next = { conn with streams := conn.streams.removeStopped id } := by
  rw [sendStopSending] at sent
  split at sent
  · cases sent
    exact .inl ⟨rfl, rfl⟩
  rename_i errorCode found
  obtain ⟨len, _, sent⟩ := Option.bind_eq_some_iff.mp sent
  split at sent
  · cases sent
    exact .inr ⟨errorCode, found, rfl, rfl⟩
  · cases sent
    exact .inl ⟨rfl, rfl⟩

omit maintains in
theorem sendResetStream_spec (sent : conn.sendResetStream id left = some (next, frame)) :
    next = conn ∧ frame = none ∨ ∃ errorCode finalSize, conn.streams.reset.lookup id = some (errorCode, finalSize) ∧
      frame = some (.resetStream id errorCode finalSize) ∧
      next = { conn with streams := conn.streams.removeReset id } := by
  rw [sendResetStream] at sent
  split at sent
  · cases sent
    exact .inl ⟨rfl, rfl⟩
  rename_i errorCode finalSize found
  obtain ⟨len, _, sent⟩ := Option.bind_eq_some_iff.mp sent
  split at sent
  · cases sent
    exact .inr ⟨errorCode, finalSize, found, rfl, rfl⟩
  · cases sent
    exact .inl ⟨rfl, rfl⟩

theorem sendMaxStreamData_maintains {now rtt minWindow : Nat} (tunes : scope.allows .call id)
    (holds : invariant conn.streams)
    (sent : conn.sendMaxStreamData id now rtt minWindow left = some (next, frame)) : invariant next.streams := by
  rw [sendMaxStreamData] at sent
  split at sent
  · split at sent
    · cases sent
      exact maintains.almostFull _ holds
    · rename_i old found
      obtain ⟨tuned, _, sent⟩ := Option.bind_eq_some_iff.mp sent
      obtain ⟨max, _, sent⟩ := Option.bind_eq_some_iff.mp sent
      obtain ⟨len, _, sent⟩ := Option.bind_eq_some_iff.mp sent
      split at sent
      · obtain ⟨updated, _, sent⟩ := Option.bind_eq_some_iff.mp sent
        cases sent
        exact maintains.almostFull _ (maintains.change holds tunes found (.tuned updated))
      · cases sent
        exact maintains.change holds tunes found (.tuned tuned)
  · cases sent
    exact holds

end Packets

def Call.changes : Call → Option (Stream.Kind × Nat)
  | .stream streamId _ | .resetStream streamId _ _ | .streamRecv streamId _ => some (.call, streamId)
  | .streamSend streamId _ _ | .streamSendZc streamId _ _ _ => some (.write, streamId)
  | .maxStreamData streamId limit => some (.raise limit, streamId)
  | .stopSending streamId _ => some (.cut, streamId)
  | .streamShutdown streamId direction _ _ => some (direction.kind, streamId)
  | _ => none

/-- The scope covers what the call may do. -/
structure Covers (scope : Scope) (conn : Connection) (call : Call) : Prop where
  sends : ∀ id, maySend id conn.isServer = true → scope.sends id
  peers : scope.peers conn.peerTransportParams
  collects : ∀ id, call.collects = some id → scope.may id
  changes : ∀ kind id, call.changes = some (kind, id) → scope.allows kind id

omit maintains in
theorem covers_all (conn : Connection) (call : Call) : Covers {} conn call :=
  ⟨fun _ _ => trivial, trivial, fun _ _ => trivial, fun _ _ _ => trivial⟩

theorem step_maintains {call : Call}
    (covers : Covers scope conn call) (holds : invariant conn.streams) (direct : call.direct = true)
    (stepped : conn.step call = some next) : invariant next.streams := by
  have peers := covers.peers
  have lawful := covers.sends
  cases call with
  | stream streamId data =>
    exact processStream_maintains maintains peers (covers.changes _ _ rfl) holds (processed_spec stepped)
  | resetStream streamId errorCode finalSize =>
    exact processResetStream_maintains maintains peers (covers.changes _ _ rfl) holds (processed_spec stepped)
  | stopSending streamId errorCode =>
    exact processStopSending_maintains maintains lawful peers (covers.changes _ _ rfl) holds (processed_spec stepped)
  | maxData limit =>
    cases stepped
    exact holds
  | maxStreamData streamId limit =>
    exact processMaxStreamData_maintains maintains lawful peers (covers.changes _ _ rfl) holds
      (Option.some.inj (processed_spec stepped))
  | peerTransportParams peerParams cwinAvailable =>
    exact processPeerTransportParams_maintains maintains holds (processed_spec stepped)
  | streamRecv streamId cap =>
    obtain ⟨result, received⟩ := called_spec stepped
    exact streamRecv_maintains maintains (covers.changes _ _ rfl) holds (covers.collects streamId rfl) received
  | streamSend streamId buf fin =>
    obtain ⟨result, sent⟩ := called_spec stepped
    exact streamSend_maintains maintains lawful peers (covers.changes _ _ rfl) holds sent
  | streamSendZc streamId buf len fin =>
    obtain ⟨result, sent⟩ := called_spec stepped
    exact streamSendZc_maintains maintains lawful peers (covers.changes _ _ rfl) holds sent
  | streamPriority streamId urgency incremental =>
    cases stepped
    exact streamPriority_maintains maintains peers holds
  | streamShutdown streamId direction err cwinAvailable =>
    obtain ⟨result, shut⟩ := called_spec stepped
    exact streamShutdown_maintains maintains lawful (covers.changes _ _ rfl) holds shut
  | updateTxCap cwinAvailable =>
    rw [(updateTxCap_spec stepped).2]
    exact holds
  | ackedStream | ackedResetStream | lostStream | sendStream | updateFlowControl | updateStreamFlowControl
  | updateMaxStreams => contradiction

end Connection

end Quiche
