import Quiche.Connection
import Quiche.Data.Total
import Quiche.Stream.RecvBuf.Length

namespace Quiche

open Data

/-! What the methods of a connection do to its streams: each one concerns a single stream,
and the rest of the connection is listed by the fields that can change. -/

namespace StreamMap

variable (map : StreamMap) (key old new : StreamPriorityKey) (id : Nat)

@[simp] theorem insertReadable_streams : (map.insertReadable key).streams = map.streams := rfl

@[simp] theorem removeReadable_streams : (map.removeReadable key).streams = map.streams := rfl

@[simp] theorem insertWritable_streams : (map.insertWritable key).streams = map.streams := rfl

@[simp] theorem removeWritable_streams : (map.removeWritable key).streams = map.streams := rfl

@[simp] theorem insertFlushable_streams : (map.insertFlushable key).streams = map.streams := rfl

@[simp] theorem removeFlushable_streams : (map.removeFlushable key).streams = map.streams := rfl

@[simp] theorem updatePriority_streams : (map.updatePriority old new).streams = map.streams := rfl

@[simp] theorem insertAlmostFull_streams : (map.insertAlmostFull id).streams = map.streams := rfl

@[simp] theorem insertReset_streams (error size : Nat) :
    (map.insertReset id error size).streams = map.streams := rfl

@[simp] theorem insertStopped_streams (error : Nat) : (map.insertStopped id error).streams = map.streams := rfl

@[simp] theorem insertReadable_flushable : (map.insertReadable key).flushable = map.flushable := rfl

@[simp] theorem removeReadable_flushable : (map.removeReadable key).flushable = map.flushable := rfl

@[simp] theorem insertWritable_flushable : (map.insertWritable key).flushable = map.flushable := rfl

@[simp] theorem removeWritable_flushable : (map.removeWritable key).flushable = map.flushable := rfl

@[simp] theorem insertFlushable_flushable :
    (map.insertFlushable key).flushable = map.flushable.insert key := rfl

@[simp] theorem removeFlushable_flushable :
    (map.removeFlushable key).flushable = map.flushable.remove key := rfl

@[simp] theorem insertAlmostFull_flushable : (map.insertAlmostFull id).flushable = map.flushable := rfl

@[simp] theorem insertReset_flushable (error size : Nat) :
    (map.insertReset id error size).flushable = map.flushable := rfl

@[simp] theorem insertStopped_flushable (error : Nat) :
    (map.insertStopped id error).flushable = map.flushable := rfl

@[simp] theorem set_flushable (stream : Stream) : (map.set id stream).flushable = map.flushable := rfl

theorem set_put (stream : Stream) : Put map.streams id stream (map.set id stream).streams :=
  put_insert map.streams id stream

theorem get_set (stream : Stream) : (map.set id stream).get id = some stream := by
  rw [get, set_put map id stream, if_pos rfl]

variable {map} {id}

theorem collect_spec {isLocal : Bool} {stream : Stream} {next : StreamMap} (found : map.get id = some stream)
    (collected : map.collect id isLocal = some next) :
    Dropped map.streams id next.streams ∧ next.flushable = map.flushable.remove stream.priorityKey := by
  rw [collect, found] at collected
  cases collected
  exact ⟨dropped_erase map.streams id, rfl⟩

end StreamMap

namespace Connection

variable {conn next : Connection} {id : Nat}

/-- A stream that `get_or_create` hands out was there, or is new. -/
inductive Origin (conn : Connection) (id : Nat) (stream : Stream) : Prop where
  | live (found : conn.streams.get id = some stream)
  | created (absent : conn.streams.get id = none) (uncollected : id ∉ conn.streams.collected)
      (fresh : ∃ maxRxData maxTxData window, stream =
        Stream.new id maxRxData maxTxData (isBidi id) (isLocal id conn.isServer) window ∧
        (maxRxData, maxTxData) = StreamMap.initialLimits id conn.localTransportParams
          conn.peerTransportParams (isLocal id conn.isServer))

theorem getOrCreateStream_spec {locally : Bool} {streams : StreamMap} {stream : Stream}
    (handed : conn.getOrCreateStream id locally = .ok (streams, stream)) :
    conn.Origin id stream ∧ Put conn.streams.streams id stream streams.streams ∧
      streams.flushable = conn.streams.flushable := by
  rcases StreamMap.getOrCreate_cases handed with
    ⟨rfl, found⟩ | ⟨absent, uncollected, rfl, counted, writable, enforced, rfl, rfl⟩
  · exact ⟨.live found, put_self found, rfl⟩
  · obtain ⟨_, _, _, _, rfl⟩ := StreamMap.enforceLimits_cases enforced
    exact ⟨.created absent uncollected ⟨_, _, _, rfl, rfl⟩, StreamMap.set_put conn.streams id _, rfl⟩

theorem getOrCreateStream_error {locally : Bool} {error : Error}
    (refused : conn.getOrCreateStream id locally = .error error) : conn.streams.get id = none := by
  rw [getOrCreateStream, StreamMap.getOrCreate] at refused
  split at refused
  · cases refused
  · assumption

/-- One stream was handed out, as `old`, and is `new` now. -/
structure Touched (conn next : Connection) (id : Nat) (old new : Stream) : Prop where
  origin : conn.Origin id old
  put : Put conn.streams.streams id new next.streams.streams

theorem addConsumed_spec {count : Nat} (added : conn.addConsumed count = some next) :
    next.flowControl.consumed = conn.flowControl.consumed + count ∧
      next = { conn with flowControl := next.flowControl, almostFull := next.almostFull } := by
  obtain ⟨control, consumed, added⟩ := Option.bind_eq_some_iff.mp added
  obtain ⟨update, _, added⟩ := Option.bind_eq_some_iff.mp added
  cases added
  obtain ⟨total, sum, same⟩ := Option.map_eq_some_iff.mp consumed
  cases same
  exact ⟨addU64_spec sum, rfl⟩

theorem updateTxCap_spec {cwinAvailable : Nat} (updated : conn.updateTxCap cwinAvailable = some next) :
    conn.txData ≤ conn.maxTxData ∧ next = { conn with
        txCap := ((min cwinAvailable (conn.maxTxData - conn.txData) : Nat) * conn.txCapFactor).ceil.toNat } := by
  obtain ⟨left, difference, updated⟩ := Option.bind_eq_some_iff.mp updated
  cases updated
  obtain ⟨within, same⟩ := subChecked_spec difference
  subst same
  exact ⟨within, rfl⟩

section Receive

theorem bidi_or_remote {bidi locally : Bool} (receives : ¬ (!bidi && locally) = true) :
    bidi = true ∨ locally = false := by
  cases bidi with
  | true => exact .inl rfl
  | false => exact .inr (Bool.eq_false_iff.mpr receives)

theorem processStream_spec {data : RangeBuf} (processed : conn.processStream id data = some (next, .ok ())) :
    next = conn ∨ ∃ old recv, conn.Touched next id old { old with recv } ∧
      old.recv.write data = some (recv, .ok ()) ∧ next.rxData = conn.rxData + (data.maxOff - old.recv.len) ∧
      next.flowControl.consumed = conn.flowControl.consumed +
        (if old.recv.drain then data.maxOff - old.recv.len else 0) ∧
      next.streams.flushable = conn.streams.flushable ∧ (isBidi id = true ∨ isLocal id conn.isServer = false) ∧
      next = { conn with
        streams := next.streams, rxData := next.rxData, flowControl := next.flowControl,
        almostFull := next.almostFull } := by
  rw [processStream] at processed
  split at processed
  · cases processed
  rename_i receives
  obtain ⟨left, _, processed⟩ := Option.bind_eq_some_iff.mp processed
  split at processed
  · cases processed
    exact .inl rfl
  · cases processed
  rename_i streams old handed
  obtain ⟨origin, put, flushable⟩ := getOrCreateStream_spec handed
  dsimp only at processed
  split at processed
  · cases processed
  obtain ⟨⟨recv, written⟩, wrote, processed⟩ := Option.bind_eq_some_iff.mp processed
  cases written with
  | error error => cases processed
  | ok _ =>
    have touched : Put conn.streams.streams id { old with recv } (streams.set id { old with recv }).streams :=
      put.trans (StreamMap.set_put streams id _)
    have mayReceive := bidi_or_remote receives
    dsimp only at processed
    split at processed
    · have draining : old.recv.drain = true := ‹_›
      obtain ⟨credited, added, processed⟩ := Option.bind_eq_some_iff.mp processed
      cases processed
      obtain ⟨consumed, frame⟩ := addConsumed_spec added
      refine .inr ⟨old, recv, ⟨origin, ?_⟩, wrote, ?_, ?_, ?_, mayReceive, ?_⟩
      · rw [frame]
        simpa [apply_ite StreamMap.streams] using touched
      · rw [frame]
        rfl
      · rw [consumed, if_pos draining]
        rfl
      · rw [frame]
        simpa [apply_ite StreamMap.flushable] using flushable
      · rw [frame]
    · have keeps : ¬ old.recv.drain = true := ‹_›
      cases processed
      refine .inr ⟨old, recv, ⟨origin, ?_⟩, wrote, rfl, ?_, ?_, mayReceive, rfl⟩
      · simpa [apply_ite StreamMap.streams] using touched
      · rw [if_neg keeps]
        rfl
      · simpa [apply_ite StreamMap.flushable] using flushable

theorem processResetStream_spec {errorCode finalSize : Nat}
    (processed : conn.processResetStream id errorCode finalSize = some (next, .ok ())) :
    next = conn ∨ ∃ old recv delta, conn.Touched next id old { old with recv } ∧
      old.recv.reset errorCode finalSize = some (recv, .ok delta) ∧ next.rxData = conn.rxData + delta ∧
      next.streams.flushable = conn.streams.flushable ∧ (isBidi id = true ∨ isLocal id conn.isServer = false) ∧
      next = { conn with streams := next.streams, rxData := next.rxData } := by
  rw [processResetStream] at processed
  split at processed
  · cases processed
  rename_i receives
  obtain ⟨left, _, processed⟩ := Option.bind_eq_some_iff.mp processed
  split at processed
  · cases processed
    exact .inl rfl
  · cases processed
  rename_i streams old handed
  obtain ⟨origin, put, flushable⟩ := getOrCreateStream_spec handed
  obtain ⟨⟨recv, result⟩, reset, processed⟩ := Option.bind_eq_some_iff.mp processed
  cases result with
  | error error => cases processed
  | ok delta =>
    dsimp only at processed
    split at processed
    · cases processed
    cases processed
    refine .inr ⟨old, recv, delta, ⟨origin, ?_⟩, reset, rfl, ?_, ?_, rfl⟩
    · simpa [apply_ite StreamMap.streams] using put.trans (StreamMap.set_put streams id _)
    · simpa [apply_ite StreamMap.flushable] using flushable
    · exact bidi_or_remote receives

/-- A stream that was changed is still there, or it is complete and was collected. -/
inductive Left (conn next : Connection) (id : Nat) (new : Stream) : Prop where
  | kept (put : Put conn.streams.streams id new next.streams.streams)
      (flushable : next.streams.flushable = conn.streams.flushable)
  | collected (complete : new.isComplete = true) (dropped : Dropped conn.streams.streams id next.streams.streams)
      (flushable : next.streams.flushable = conn.streams.flushable.remove new.priorityKey)

theorem collectIf_left {streams result : StreamMap} {new : Stream} {isLocal collects : Bool}
    (put : Put conn.streams.streams id new streams.streams)
    (flushable : streams.flushable = conn.streams.flushable) (complete : collects → new.isComplete = true)
    (collected : streams.collectIf id isLocal collects = some result) :
    conn.Left { conn with streams := result } id new := by
  rw [StreamMap.collectIf] at collected
  split at collected
  · rename_i chosen
    have found : streams.get id = some new := by
      rw [StreamMap.get, put, if_pos rfl]
    obtain ⟨dropped, removed⟩ := StreamMap.collect_spec found collected
    refine .collected (complete chosen) (put.drop dropped) ?_
    rw [← flushable]
    exact removed
  · cases collected
    exact .kept put flushable

theorem Left.congr {other : Connection} {new : Stream} (left : conn.Left next id new)
    (streams : other.streams.streams = next.streams.streams)
    (flushable : other.streams.flushable = next.streams.flushable) : conn.Left other id new := by
  cases left with
  | kept put same => exact .kept (streams ▸ put) (flushable.trans same)
  | collected complete dropped removed =>
    exact .collected complete (streams ▸ dropped) (flushable.trans removed)

theorem streamRecv_spec {cap : Nat} {result : Except Error (List UInt8 × Bool)}
    (received : conn.streamRecv id cap = some (next, result)) :
    next = conn ∨ ∃ old recv, conn.streams.get id = some old ∧ old.isReadable = true ∧
      old.recv.emit cap = some (recv, result) ∧ conn.Left next id { old with recv } ∧
      next.flowControl.consumed = conn.flowControl.consumed + (RecvBuf.output result).length ∧
      (isBidi id = true ∨ isLocal id conn.isServer = false) ∧ next = { conn with
        streams := next.streams, flowControl := next.flowControl, almostFull := next.almostFull } := by
  rw [streamRecv] at received
  split at received
  · cases received
    exact .inl rfl
  rename_i receives
  split at received
  · cases received
    exact .inl rfl
  rename_i old found
  split at received
  · cases received
    exact .inl rfl
  rename_i unready
  have readable : old.isReadable = true := by simpa using unready
  obtain ⟨⟨recv, emitted⟩, called, received⟩ := Option.bind_eq_some_iff.mp received
  have put := StreamMap.set_put conn.streams id { old with recv }
  have mayReceive := bidi_or_remote receives
  cases emitted with
  | error error =>
    obtain ⟨streams, collected, received⟩ := Option.bind_eq_some_iff.mp received
    cases received
    refine .inr ⟨old, recv, found, readable, called, ?_, rfl, mayReceive, rfl⟩
    have left : conn.Left { conn with streams } id { old with recv } :=
      collectIf_left put rfl (fun isComplete => isComplete) collected
    exact left.congr rfl rfl
  | ok output =>
    obtain ⟨out, fin⟩ := output
    obtain ⟨almostFull, _, received⟩ := Option.bind_eq_some_iff.mp received
    obtain ⟨streams, collected, received⟩ := Option.bind_eq_some_iff.mp received
    obtain ⟨credited, added, received⟩ := Option.bind_eq_some_iff.mp received
    cases received
    obtain ⟨consumed, frame⟩ := addConsumed_spec added
    refine .inr ⟨old, recv, found, readable, called, ?_, ?_, mayReceive, ?_⟩
    · have left : conn.Left { conn with streams } id { old with recv } :=
        collectIf_left (by simpa [apply_ite StreamMap.streams] using put)
          (by simp [apply_ite StreamMap.flushable]) (fun isComplete => isComplete) collected
      rw [frame]
      exact left.congr (by simp [apply_ite StreamMap.streams]) (by simp [apply_ite StreamMap.flushable])
    · exact consumed
    · rw [frame]

theorem streamShutdown_read_spec {err cwinAvailable : Nat} {result : Except Error Unit}
    (shut : conn.streamShutdown id .read err cwinAvailable = some (next, result)) :
    next = conn ∨ ∃ old recv, conn.streams.get id = some old ∧ old.recv.shutdown = (recv, .ok ()) ∧
      Put conn.streams.streams id { old with recv } next.streams.streams ∧
      next.streams.flushable = conn.streams.flushable ∧ next = { conn with streams := next.streams } := by
  rw [streamShutdown] at shut
  dsimp only at shut
  split at shut
  · cases shut
    exact .inl rfl
  split at shut
  · cases shut
    exact .inl rfl
  rename_i old found
  split at shut
  · cases shut
    exact .inl rfl
  rename_i recv called
  cases shut
  refine .inr ⟨old, recv, found, called, ?_, ?_, rfl⟩
  · simpa [apply_ite StreamMap.streams] using StreamMap.set_put conn.streams id { old with recv }
  · simp [apply_ite StreamMap.flushable]

end Receive

section Send

def clawedBack : Except Error (Nat × Nat) → Nat
  | .ok (_, unsent) => unsent
  | .error _ => 0

theorem stop_error {send stopped : SendBuf} {errorCode : Nat} {error : Error}
    (stop : send.stop errorCode = some (stopped, .error error)) : stopped = send := by
  rw [SendBuf.stop] at stop
  split at stop
  · cases stop
    rfl
  · obtain ⟨⟨reset, sizes⟩, _, stop⟩ := Option.bind_eq_some_iff.mp stop
    cases stop

theorem shutdown_error {send shut : SendBuf} {error : Error}
    (shutdown : send.shutdown = some (shut, .error error)) : send.isShutdown = true := by
  rw [SendBuf.shutdown] at shutdown
  split at shutdown
  · assumption
  · obtain ⟨⟨reset, sizes⟩, _, shutdown⟩ := Option.bind_eq_some_iff.mp shutdown
    cases shutdown

theorem processStopSending_spec {errorCode : Nat}
    (processed : conn.processStopSending id errorCode = some (next, .ok ())) :
    conn.streams.get id = none ∧ next = conn ∨ ∃ old send result, conn.Touched next id old { old with send } ∧
      old.send.stop errorCode = some (send, result) ∧ next.txData = conn.txData - clawedBack result ∧
      next.streams.flushable = conn.streams.flushable ∧ next = { conn with
        streams := next.streams, txData := next.txData
        txBuffered := conn.txBuffered - clawedBack result } := by
  rw [processStopSending] at processed
  split at processed
  · cases processed
  split at processed
  · rename_i refused
    cases processed
    exact .inl ⟨getOrCreateStream_error refused, rfl⟩
  · cases processed
  rename_i streams old handed
  obtain ⟨origin, put, flushable⟩ := getOrCreateStream_spec handed
  obtain ⟨⟨send, result⟩, stop, processed⟩ := Option.bind_eq_some_iff.mp processed
  cases result with
  | error error =>
    cases processed
    have same := stop_error stop
    subst same
    exact .inr ⟨old, _, _, ⟨origin, put⟩, stop, rfl, flushable, rfl⟩
  | ok sizes =>
    cases processed
    refine .inr ⟨old, send, _, ⟨origin, ?_⟩, stop, rfl, ?_, rfl⟩
    · simpa [apply_ite StreamMap.streams] using put.trans (StreamMap.set_put streams id { old with send })
    · simpa [apply_ite StreamMap.flushable] using flushable

theorem processMaxStreamData_spec {limit : Nat} (processed : conn.processMaxStreamData id limit = (next, .ok ())) :
    next = conn ∨ ∃ old new, conn.Touched next id old new ∧ new = { old with send := old.send.updateMaxData limit } ∧
      next.streams.flushable = (if new.isFlushable && !old.isFlushable then
        conn.streams.flushable.insert old.priorityKey else conn.streams.flushable) ∧
      next = { conn with streams := next.streams } := by
  rw [processMaxStreamData] at processed
  split at processed
  · cases processed
  split at processed
  · cases processed
    exact .inl rfl
  · cases processed
  rename_i streams old handed
  obtain ⟨origin, put, flushable⟩ := getOrCreateStream_spec handed
  cases processed
  refine .inr ⟨old, _, ⟨origin, ?_⟩, rfl, ?_, rfl⟩
  · simpa [apply_ite StreamMap.streams] using put.trans (StreamMap.set_put streams id _)
  · simp [apply_ite StreamMap.flushable, flushable]

theorem updateBlocked_spec (id : Nat) (streams : StreamMap) (stream : Stream) (isBlocked : Bool) :
    ∃ blockedAt, Put streams.streams id { stream with send := stream.send.updateBlockedAt blockedAt }
        (updateBlocked streams id stream isBlocked).streams ∧
      (updateBlocked streams id stream isBlocked).flushable = streams.flushable := by
  rw [updateBlocked]
  split
  · split
    · exact ⟨_, StreamMap.set_put streams id _, rfl⟩
    · exact ⟨stream.send.blockedAt, StreamMap.set_put streams id _, rfl⟩
  · exact ⟨none, StreamMap.set_put streams id _, rfl⟩

variable {Result : Type} {writeFn : SendBuf → Nat → Bool → Option (SendBuf × Except Error (Nat × Result))}

/-- What a call of `stream_do_send` writes, if it gets as far as that. -/
inductive Wrote (conn next : Connection) (id len : Nat) (fin : Bool)
    (writeFn : SendBuf → Nat → Bool → Option (SendBuf × Except Error (Nat × Result))) : Prop where
  | refused (frame : next = { conn with blockedLimit := next.blockedLimit })
  | waiting (old : Stream) (touched : conn.Touched next id old old)
      (flushable : next.streams.flushable = conn.streams.flushable)
      (frame : next = { conn with streams := next.streams, blockedLimit := next.blockedLimit })
  | failed (old : Stream) (send : SendBuf) (error : Error)
      (called : writeFn old.send (min conn.txCap len) (!decide (conn.txCap < len) && fin) = some (send, .error error))
      (touched : conn.Touched next id old { old with send })
      (flushable : next.streams.flushable = conn.streams.flushable)
      (frame : next = { conn with streams := next.streams, blockedLimit := next.blockedLimit })
  | wrote (old : Stream) (send : SendBuf) (sent : Nat) (result : Result) (blockedAt : Option Nat)
      (called : writeFn old.send (min conn.txCap len) (!decide (conn.txCap < len) && fin) =
        some (send, .ok (sent, result)))
      (touched : conn.Touched next id old { old with send := send.updateBlockedAt blockedAt })
      (flushable : next.streams.flushable = if ({ old with send : Stream }.isFlushable ||
            (len == 0 && (!decide (conn.txCap < len) && fin))) && !old.isFlushable then
          conn.streams.flushable.insert old.priorityKey
        else conn.streams.flushable)
      (capped : sent ≤ conn.txCap)
      (frame : next = { conn with
        streams := next.streams, blockedLimit := next.blockedLimit, txCap := conn.txCap - sent,
        txData := conn.txData + sent, txBuffered := conn.txBuffered + sent })

theorem streamDoSend_spec {len : Nat} {fin : Bool} {result : Except Error Result}
    (called : conn.streamDoSend id len fin writeFn = some (next, result)) : conn.Wrote next id len fin writeFn := by
  rw [streamDoSend] at called
  split at called
  · cases called
    exact .refused rfl
  obtain ⟨left, _, called⟩ := Option.bind_eq_some_iff.mp called
  dsimp only at called
  split at called
  · cases called
    exact .refused rfl
  rename_i streams old handed
  obtain ⟨origin, put, flushable⟩ := getOrCreateStream_spec handed
  have origin : conn.Origin id old := by
    cases origin with
    | live found => exact .live found
    | created absent uncollected fresh => exact .created absent uncollected fresh
  split at called
  · cases called
    refine .waiting old ⟨origin, ?_⟩ ?_ rfl
    · simpa [apply_ite StreamMap.streams] using put
    · simpa [apply_ite StreamMap.flushable] using flushable
  obtain ⟨⟨send, written⟩, wrote, called⟩ := Option.bind_eq_some_iff.mp called
  cases written with
  | error error =>
    cases called
    exact .failed old send error wrote ⟨origin, put.trans (StreamMap.set_put streams id { old with send })⟩
      flushable rfl
  | ok output =>
    obtain ⟨sent, value⟩ := output
    obtain ⟨txCap, difference, called⟩ := Option.bind_eq_some_iff.mp called
    obtain ⟨capped, same⟩ := subChecked_spec difference
    subst same
    obtain ⟨blockedAt, blockedPut, sameFlushable⟩ := updateBlocked_spec id streams { old with send }
      (decide (sent < min conn.txCap len))
    have touched := put.trans blockedPut
    rw [flushable] at sameFlushable
    dsimp only at called
    split at called
    · cases called
      refine .wrote old send sent value blockedAt wrote ⟨origin, ?_⟩ ?_ capped rfl
      · simpa [apply_ite StreamMap.streams] using touched
      · simp only [apply_ite StreamMap.flushable, StreamMap.removeWritable_flushable,
          StreamMap.insertWritable_flushable, StreamMap.insertFlushable_flushable, ite_self, sameFlushable]
    · cases called
      refine .wrote old send sent value blockedAt wrote ⟨origin, ?_⟩ ?_ capped rfl
      · simpa [apply_ite StreamMap.streams] using touched
      · simp only [apply_ite StreamMap.flushable, StreamMap.removeWritable_flushable,
          StreamMap.insertWritable_flushable, StreamMap.insertFlushable_flushable, ite_self, sameFlushable]

theorem streamPriority_spec {urgency : UInt8} {incremental : Bool} {result : Except Error Unit}
    (called : conn.streamPriority id urgency incremental = (next, result)) :
    next = conn ∨ ∃ old, next = { conn with streams := next.streams } ∧
      ((conn.Touched next id old old ∧ next.streams.flushable = conn.streams.flushable) ∨ conn.Touched next id old
            { old with urgency, incremental, priorityKey := ⟨urgency, incremental, id⟩ } ∧ next.streams.flushable =
            conn.streams.flushable.updatePriority old.priorityKey ⟨urgency, incremental, id⟩) := by
  rw [streamPriority] at called
  split at called
  · cases called
    exact .inl rfl
  · cases called
    exact .inl rfl
  rename_i streams old handed
  obtain ⟨origin, put, flushable⟩ := getOrCreateStream_spec handed
  dsimp only at called
  split at called
  · cases called
    exact .inr ⟨old, rfl, .inl ⟨⟨origin, put⟩, flushable⟩⟩
  · cases called
    refine .inr ⟨old, rfl, .inr ⟨⟨origin, ?_⟩, ?_⟩⟩
    · exact put.trans (StreamMap.set_put streams id _)
    · rw [← flushable]
      rfl

theorem streamShutdown_write_spec {err cwinAvailable : Nat} {result : Except Error Unit}
    (called : conn.streamShutdown id .write err cwinAvailable = some (next, result)) :
    next = conn ∧ (∀ old, conn.streams.get id = some old →
        (isLocal id conn.isServer || isBidi id) = false ∨ old.send.isShutdown = true) ∨
          ∃ old send finalSize unsent, conn.streams.get id = some old ∧
      (isLocal id conn.isServer || isBidi id) = true ∧ old.send.shutdown = some (send, .ok (finalSize, unsent)) ∧
      Put conn.streams.streams id { old with send } next.streams.streams ∧
      next.streams.flushable = conn.streams.flushable ∧ conn.txData - unsent ≤ conn.maxTxData ∧ next = { conn with
        streams := next.streams, txBuffered := conn.txBuffered - unsent, txData := conn.txData - unsent
        txCap := ((min cwinAvailable (conn.maxTxData - (conn.txData - unsent)) : Nat) *
          conn.txCapFactor).ceil.toNat } := by
  rw [streamShutdown] at called
  dsimp only at called
  split at called
  · rename_i remote
    cases called
    have stays : (isLocal id conn.isServer || isBidi id) = false := by simpa using remote
    exact .inl ⟨rfl, fun _ _ => .inl stays⟩
  rename_i sends
  have maySend : (isLocal id conn.isServer || isBidi id) = true := by simpa [Decidable.or_iff_not_imp_left] using sends
  split at called
  · rename_i absent
    cases called
    exact .inl ⟨rfl, fun old found => by cases absent.symm.trans found⟩
  rename_i old found
  obtain ⟨⟨send, shut⟩, shutdown, called⟩ := Option.bind_eq_some_iff.mp called
  cases shut with
  | error error =>
    cases called
    refine .inl ⟨rfl, fun other same => .inr ?_⟩
    cases found.symm.trans same
    exact shutdown_error shutdown
  | ok sizes =>
    obtain ⟨updated, capped, called⟩ := Option.bind_eq_some_iff.mp called
    cases called
    obtain ⟨within, frame⟩ := updateTxCap_spec capped
    refine .inr ⟨old, send, sizes.1, sizes.2, found, maySend, shutdown, ?_, ?_, within, ?_⟩
    · rw [frame]
      exact StreamMap.set_put conn.streams id { old with send }
    · rw [frame]
      rfl
    · rw [frame]

end Send

section Packets

theorem ackedStream_spec {offset length : Nat} (acked : conn.ackedStream id offset length = some next) :
    conn.streams.get id = none ∧ next = conn ∨ ∃ old send, conn.streams.get id = some old ∧
      old.send.ackAndDrop offset length = some send ∧ conn.Left next id { old with send } ∧
      next = { conn with streams := next.streams, txBuffered := conn.txBuffered - length } := by
  rw [ackedStream] at acked
  split at acked
  · rename_i absent
    cases acked
    exact .inl ⟨absent, rfl⟩
  rename_i old found
  obtain ⟨send, dropped, acked⟩ := Option.bind_eq_some_iff.mp acked
  obtain ⟨streams, collected, acked⟩ := Option.bind_eq_some_iff.mp acked
  cases acked
  have left : conn.Left { conn with streams } id { old with send } :=
    collectIf_left (StreamMap.set_put conn.streams id _) rfl
      (fun both => (Bool.and_eq_true_iff.mp both).1) collected
  exact .inr ⟨old, send, found, dropped, left.congr rfl rfl, rfl⟩

theorem ackedResetStream_spec (acked : conn.ackedResetStream id = some next) :
    next = conn ∨ ∃ old, conn.streams.get id = some old ∧ conn.Left next id old ∧
      next = { conn with streams := next.streams } := by
  rw [ackedResetStream] at acked
  split at acked
  · cases acked
    exact .inl rfl
  rename_i old found
  obtain ⟨streams, collected, acked⟩ := Option.bind_eq_some_iff.mp acked
  cases acked
  exact .inr ⟨old, found, collectIf_left (put_self found) rfl
    (fun both => (Bool.and_eq_true_iff.mp both).1) collected, rfl⟩

theorem lostStream_spec {lost : StreamHeader} (retransmitted : conn.lostStream lost = some next) :
    next = conn ∨ ∃ old send, conn.streams.get lost.streamId = some old ∧
      old.send.retransmit lost.offset lost.length = some send ∧
      Put conn.streams.streams lost.streamId { old with send } next.streams.streams ∧
      next.streams.flushable = (if ({ old with send : Stream }.isFlushable ||
          (lost.length == 0 && lost.fin)) && !old.isFlushable then
        conn.streams.flushable.insert old.priorityKey else conn.streams.flushable) ∧
      next = { conn with streams := next.streams } := by
  rw [lostStream] at retransmitted
  split at retransmitted
  · cases retransmitted
    exact .inl rfl
  rename_i old found
  obtain ⟨send, requeued, retransmitted⟩ := Option.bind_eq_some_iff.mp retransmitted
  cases retransmitted
  refine .inr ⟨old, send, found, requeued, ?_, ?_, rfl⟩
  · simpa [apply_ite StreamMap.streams] using StreamMap.set_put conn.streams lost.streamId { old with send }
  · simp [apply_ite StreamMap.flushable]

theorem flushStreams_streams {fuel left : Nat} {streams result : StreamMap} {sent : Option StreamHeader}
    (flushed : flushStreams fuel streams left = some (result, sent)) :
    result.streams = streams.streams ∨ ∃ id old send outLen out fin, streams.get id = some old ∧
      old.send.emit outLen = some (send, out, fin) ∧ Put streams.streams id { old with send } result.streams := by
  induction fuel generalizing streams with
  | zero =>
    rw [flushStreams] at flushed
    split at flushed
    · cases flushed
      exact .inl rfl
    · cases flushed
  | succ fuel ih =>
    rw [flushStreams] at flushed
    split at flushed
    · cases flushed
      exact .inl rfl
    rename_i key front
    dsimp only at flushed
    split at flushed
    · have later := ih flushed
      exact later
    rename_i old found
    split at flushed
    · have later := ih flushed
      exact later
    obtain ⟨hdrLen, header, flushed⟩ := Option.bind_eq_some_iff.mp flushed
    split at flushed
    · have later := ih flushed
      exact later
    obtain ⟨⟨send, out, fin⟩, emitted, flushed⟩ := Option.bind_eq_some_iff.mp flushed
    cases flushed
    refine .inr ⟨key.id, old, send, _, out, fin, found, emitted, ?_⟩
    simpa [apply_ite StreamMap.streams] using StreamMap.set_put streams key.id { old with send }

theorem sendStream_spec {left : Nat} {sent : Option StreamHeader} (called : conn.sendStream left = some (next, sent)) :
    next = conn ∨ (maxStreamOverhead < left ∧
      flushStreams conn.streams.flushable.length conn.streams left = some (next.streams, sent) ∧
      next = { conn with streams := next.streams }) := by
  rw [sendStream] at called
  split at called
  · rename_i room
    obtain ⟨⟨streams, frame⟩, flushed, called⟩ := Option.bind_eq_some_iff.mp called
    cases called
    exact .inr ⟨room, flushed, rfl⟩
  · cases called
    exact .inl rfl

end Packets

/-- What can happen to the streams of a connection: frames of the peer, calls of the
application, and what becomes of packets. The last three stand for the frames and packets
that move limits; they may set any limit. -/
inductive Call where
  | stream (streamId : Nat) (data : RangeBuf)
  | resetStream (streamId errorCode finalSize : Nat)
  | stopSending (streamId errorCode : Nat)
  | maxData (limit : Nat)
  | maxStreamData (streamId limit : Nat)
  | peerTransportParams (peerParams : TransportParams) (cwinAvailable : Nat)
  | streamRecv (streamId cap : Nat)
  | streamSend (streamId : Nat) (buf : List UInt8) (fin : Bool)
  | streamSendZc (streamId : Nat) (buf : List UInt8) (len : Option Nat) (fin : Bool)
  | streamPriority (streamId : Nat) (urgency : UInt8) (incremental : Bool)
  | streamShutdown (streamId : Nat) (direction : Shutdown) (err cwinAvailable : Nat)
  | ackedStream (streamId offset length : Nat)
  | ackedResetStream (streamId : Nat)
  | lostStream (lost : StreamHeader)
  | sendStream (left : Nat)
  | updateTxCap (cwinAvailable : Nat)
  | updateFlowControl (control : FlowControl)
  | updateStreamFlowControl (streamId : Nat) (control : FlowControl)
  | updateMaxStreams (peerBidi peerUni localBidi localUni : Nat)

def processed : Option (Connection × Except Error Unit) → Option Connection
  | some (conn, .ok ()) => some conn
  | _ => none

def called {Result : Type} (outcome : Option (Connection × Except Error Result)) : Option Connection :=
  outcome.map (·.1)

def updateStreamFlowControl (conn : Connection) (streamId : Nat) (control : FlowControl) : Connection :=
  match conn.streams.get streamId with
  | none => conn
  | some stream =>
    let flowControl := { control with consumed := stream.recv.flowControl.consumed }
    { conn with
      streams := conn.streams.set streamId { stream with recv := { stream.recv with flowControl } } }

def step (conn : Connection) : Call → Option Connection
  | .stream streamId data => processed (conn.processStream streamId data)
  | .resetStream streamId errorCode finalSize =>
    processed (conn.processResetStream streamId errorCode finalSize)
  | .stopSending streamId errorCode => processed (conn.processStopSending streamId errorCode)
  | .maxData limit => some (conn.processMaxData limit)
  | .maxStreamData streamId limit => processed (some (conn.processMaxStreamData streamId limit))
  | .peerTransportParams peerParams cwinAvailable =>
    processed (conn.processPeerTransportParams peerParams cwinAvailable)
  | .streamRecv streamId cap => called (conn.streamRecv streamId cap)
  | .streamSend streamId buf fin => called (conn.streamSend streamId buf fin)
  | .streamSendZc streamId buf len fin => called (conn.streamSendZc streamId buf len fin)
  | .streamPriority streamId urgency incremental =>
    some (conn.streamPriority streamId urgency incremental).1
  | .streamShutdown streamId direction err cwinAvailable =>
    called (conn.streamShutdown streamId direction err cwinAvailable)
  | .ackedStream streamId offset length => conn.ackedStream streamId offset length
  | .ackedResetStream streamId => conn.ackedResetStream streamId
  | .lostStream lost => conn.lostStream lost
  | .sendStream left => (conn.sendStream left).map (·.1)
  | .updateTxCap cwinAvailable => conn.updateTxCap cwinAvailable
  | .updateFlowControl control =>
    some { conn with flowControl := { control with consumed := conn.flowControl.consumed } }
  | .updateStreamFlowControl streamId control => some (conn.updateStreamFlowControl streamId control)
  | .updateMaxStreams peerBidi peerUni localBidi localUni =>
    some { conn with
      streams := { conn.streams with
        peerMaxStreamsBidi := peerBidi
        peerMaxStreamsUni := peerUni
        localMaxStreamsBidi := localBidi
        localMaxStreamsUni := localUni } }

def Call.collects : Call → Option Nat
  | .streamRecv streamId _ => some streamId
  | .ackedStream streamId _ _ => some streamId
  | .ackedResetStream streamId => some streamId
  | _ => none

structure History where
  conn : Connection
  closed : List Stream

namespace History

def start (config : Config) (scid : List UInt8) (localAddr peerAddr : SocketAddr)
    (addressVerified isServer : Bool) : History :=
  ⟨Connection.new config scid localAddr peerAddr addressVerified isServer, []⟩

def collected (conn next : Connection) (call : Call) : List Stream :=
  match call.collects with
  | none => []
  | some streamId => if (next.streams.get streamId).isNone then (conn.streams.get streamId).toList else []

def machine : Machine History Call where
  step history call := do
    let next ← history.conn.step call
    return ⟨next, history.closed ++ collected history.conn next call⟩

end History

section Step

variable {call : Call}

theorem processed_spec {outcome : Option (Connection × Except Error Unit)}
    (finished : processed outcome = some next) : outcome = some (next, .ok ()) := by
  rw [processed.eq_def] at finished
  split at finished
  · cases finished
    rfl
  · cases finished

theorem called_spec {Result : Type} {outcome : Option (Connection × Except Error Result)}
    (finished : called outcome = some next) : ∃ result, outcome = some (next, result) := by
  obtain ⟨⟨conn, result⟩, same, rfl⟩ := Option.map_eq_some_iff.mp finished
  exact ⟨result, same⟩

theorem updateStreamFlowControl_spec (conn : Connection) (streamId : Nat) (control : FlowControl) :
    conn.updateStreamFlowControl streamId control = conn ∨ ∃ old flowControl, conn.streams.get streamId = some old ∧
        conn.updateStreamFlowControl streamId control = { conn with
          streams := conn.streams.set streamId { old with recv := { old.recv with flowControl } } } := by
  rw [updateStreamFlowControl]
  split
  · exact .inl rfl
  · rename_i old found
    exact .inr ⟨old, _, found, rfl⟩

end Step

end Connection

end Quiche
