import Quiche.Connection.LostFrames

namespace Quiche

open Data

namespace StreamMap

/-- Every stream has a key of its own, and its data lies in order. -/
structure Arranged (map : StreamMap) : Prop where
  keyed : ∀ id stream, map.get id = some stream → stream.priorityKey.id = id
  placed : ∀ id stream, map.get id = some stream → stream.send.Placed

variable {map : StreamMap} {id : Nat} {old new : Stream} {kind : Stream.Kind}

theorem Arranged.put {next : StreamMap} (arranged : map.Arranged) (put : Put map.streams id new next.streams)
    (key : new.priorityKey.id = id) (placed : new.send.Placed) : next.Arranged := by
  constructor
  all_goals
    intro other stream found
    rw [get, put] at found
    split at found
  · rename_i same
    cases found
    exact same ▸ key
  · exact arranged.keyed other stream found
  · cases found
    exact placed
  · exact arranged.placed other stream found

theorem placed_change (placed : old.send.Placed) (change : old.Change kind new) : new.send.Placed := by
  cases change with
  | same | received | reset | read | shutRead | tuned => exact placed
  | raised limit => exact ⟨placed.ordered, placed.within, placed.emitOff_le⟩
  | wrote bytes fin send result blockedAt written =>
    have moved := (SendBuf.write_extends written).placed placed
    exact ⟨moved.ordered, moved.within, moved.emitOff_le⟩
  | appended bytes cap fin send result blockedAt written =>
    have moved := (SendBuf.appendBuf_extends written).placed placed
    exact ⟨moved.ordered, moved.within, moved.emitOff_le⟩
  | stopped errorCode send result done =>
    cases result with
    | ok given => exact (placed.stop done).1.placed
    | error reason =>
      rw [SendBuf.stop] at done
      split at done
      · cases done
        exact placed
      · obtain ⟨_, _, done⟩ := Option.bind_eq_some_iff.mp done
        cases done
  | shutWrite send result done =>
    cases result with
    | ok given => exact (placed.shutdown done).1.placed
    | error reason =>
      rw [SendBuf.shutdown] at done
      split at done
      · cases done
        exact placed
      · obtain ⟨_, _, done⟩ := Option.bind_eq_some_iff.mp done
        cases done
  | emitted outLen send out fin emitted => exact (SendBuf.emit_kept emitted).placed placed
  | acked offset length send dropped => exact (SendBuf.ackAndDrop_kept dropped).placed placed
  | lost offset length send requeued => exact (SendBuf.retransmit_kept requeued).placed placed

theorem arranged_maintains (isServer : Bool) : Maintains isServer {} Arranged where
  open_ {map next id localParams peerParams locally stream} arranged _ handed := by
    have opened := getOrCreate_opened handed
    rcases opened.origin with found | ⟨_, _, _, _, _, _, _, rfl⟩
    · exact arranged.put opened.put (arranged.keyed id stream found) (arranged.placed id stream found)
    · exact arranged.put opened.put rfl (SendBuf.new_placed _)
  change {map id kind old new} arranged _ found change := by
    refine arranged.put (set_put map id new) ?_ (placed_change (arranged.placed id old found) change)
    rw [change.key_eq]
    exact arranged.keyed id old found
  prioritize {map id old} urgency incremental arranged found :=
    arranged.put (set_put map id _) rfl (arranged.placed id old found)
  readable _ arranged := ⟨arranged.keyed, arranged.placed⟩
  writable _ arranged := ⟨arranged.keyed, arranged.placed⟩
  almostFull _ arranged := ⟨arranged.keyed, arranged.placed⟩
  blocked _ arranged := ⟨arranged.keyed, arranged.placed⟩
  flush arranged _ _ := ⟨arranged.keyed, arranged.placed⟩
  reset _ _ arranged _ := ⟨arranged.keyed, arranged.placed⟩
  stopped _ _ arranged := ⟨arranged.keyed, arranged.placed⟩
  collect {map next id stream} arranged _ found collected := by
    have kept : ∀ other known, next.get other = some known → map.get other = some known := by
      intro other known present
      rw [get, (collect_spec found collected).1] at present
      split at present
      · cases present
      · exact present
    exact ⟨fun other known present => arranged.keyed other known (kept other known present),
      fun other known present => arranged.placed other known (kept other known present)⟩
  peerMax _ _ arranged := ⟨arranged.keyed, arranged.placed⟩

theorem arranged_sheds : Sheds Arranged where
  reflush arranged _ _ := ⟨arranged.keyed, arranged.placed⟩
  unflush _ arranged := ⟨arranged.keyed, arranged.placed⟩
  unreset _ arranged := ⟨arranged.keyed, arranged.placed⟩
  unstopped _ arranged := ⟨arranged.keyed, arranged.placed⟩
  commit _ _ arranged := ⟨arranged.keyed, arranged.placed⟩

end StreamMap

namespace Resending

variable {epoch : Epoch} {state after last : Resending} {path left : LossyPath} {frame : Frame} {demand : Demand}

/-- The data of every stream and of every epoch lies in order. -/
structure Arranged (state : Resending) : Prop where
  streams : state.conn.streams.Arranged
  crypto : ∀ epoch, (state.cryptoStreams epoch).Placed

/-- Both hold the same streams, with the same limits and the same ranges to send again. -/
structure Alike (state after : Resending) : Prop where
  absent : ∀ id, state.conn.streams.get id = none → after.conn.streams.get id = none
  present : ∀ id old, state.conn.streams.get id = some old → ∃ new, after.conn.streams.get id = some new ∧
    new.send.maxData = old.send.maxData ∧
    ∀ offset length place, new.send.Returns offset length place ↔ old.send.Returns offset length place

theorem alike_of_streams (same : after.conn.streams.streams = state.conn.streams.streams) : Alike state after := by
  have get : ∀ id, after.conn.streams.get id = state.conn.streams.get id := fun id => by
    rw [StreamMap.get, StreamMap.get, same]
  refine ⟨fun id absent => (get id).trans absent, fun id old found => ⟨old, (get id).trans found, rfl, ?_⟩⟩
  exact fun _ _ _ => Iff.rfl

theorem Alike.trans (first : Alike state after) (second : Alike after last) : Alike state last := by
  refine ⟨fun id absent => second.absent id (first.absent id absent), fun id old found => ?_⟩
  obtain ⟨middle, there, limit, returns⟩ := first.present id old found
  obtain ⟨new, kept, same, alike⟩ := second.present id middle there
  exact ⟨new, kept, same.trans limit, fun offset length place =>
    (alike offset length place).trans (returns offset length place)⟩

theorem Alike.serves_iff (alike : Alike state after) : after.Serves frame demand ↔ state.Serves frame demand := by
  refine or_congr Iff.rfl ?_
  constructor
  · rintro ⟨streamId, offset, length, fin, new, rfl, rfl, found, place, below, returns⟩
    cases before : state.conn.streams.get streamId with
    | none =>
      rw [alike.absent streamId before] at found
      cases found
    | some old =>
      obtain ⟨same, there, limit, returned⟩ := alike.present streamId old before
      cases there.symm.trans found
      exact ⟨streamId, offset, length, fin, old, rfl, rfl, before, place, limit ▸ below, (returned ..).mp returns⟩
  · rintro ⟨streamId, offset, length, fin, old, rfl, rfl, found, place, below, returns⟩
    obtain ⟨new, there, limit, returned⟩ := alike.present streamId old found
    exact ⟨streamId, offset, length, fin, new, rfl, rfl, there, place, limit ▸ below, (returned ..).mpr returns⟩

/-- After the lost frame, what waits to be sent again is what did before and what the frame serves. -/
structure Redone (epoch : Epoch) (state : Resending) (frame : Frame) (after : Resending) : Prop where
  arranged : after.Arranged
  alike : Alike state after
  met_iff : ∀ demand, after.Met epoch demand ↔ state.Met epoch demand ∨ state.Serves frame demand

/-- What handling one lost frame of the path gives. -/
structure Outcome (epoch : Epoch) (state : Resending) (path : LossyPath) (frame : Frame) (after : Resending)
    (left : LossyPath) (result : Except Error Unit) : Prop where
  recovery : left.recovery = path.recovery
  redone : result = .ok () → Redone epoch state frame after ∧
    state.conn.ids.retireDcidSeqs.admitFrame frame = .ok after.conn.ids.retireDcidSeqs
  failed : ∀ reason, result = .error reason → after = state ∧
    state.conn.ids.retireDcidSeqs.admitFrame frame = .error reason

theorem redone_self (arranged : state.Arranged) (nothing : ∀ demand, state.Serves frame demand → state.Met epoch demand) :
    Redone epoch state frame state where
  arranged := arranged
  alike := alike_of_streams rfl
  met_iff demand := (or_iff_left_of_imp (nothing demand)).symm

theorem outcome_of_redone (redone : Redone epoch state frame after) (recovery : left.recovery = path.recovery)
    (admitted : state.conn.ids.retireDcidSeqs.admitFrame frame = .ok after.conn.ids.retireDcidSeqs) :
    Outcome epoch state path frame after left (.ok ()) := ⟨recovery, fun _ => ⟨redone, admitted⟩, nofun⟩

theorem crypto_redone {offset length : Nat} {send : SendBuf} (arranged : state.Arranged)
    (requeued : (state.cryptoStreams epoch).retransmit offset length = some send) :
    Redone epoch state (.cryptoHeader offset length)
      ({ state with cryptoStreams := Function.update state.cryptoStreams epoch send }.countRetrans length) := by
  obtain ⟨next, same, placed, marked⟩ := SendBuf.retransmit_marked (arranged.crypto epoch) offset length
  cases same.symm.trans requeued
  refine ⟨⟨arranged.streams, fun other => ?_⟩, alike_of_streams rfl, fun demand => ?_⟩
  · show (Function.update state.cryptoStreams epoch send other).Placed
    rw [Function.update_apply]
    split
    · exact placed
    · exact arranged.crypto other
  · cases demand with
    | crypto place =>
      simp only [Met, countRetrans, Function.update_self, marked.waits_iff]
      simp [Serves, Frame.Demands]
    | stream | fin | ack | resetStream | handshakeDone | maxStreamData | maxData | newConnectionId
    | retireConnectionId => simp [Met, Serves, Frame.Demands, countRetrans]

section Stream

variable {streamId offset length : Nat} {fin : Bool} {old : Stream} {send : SendBuf} {conn : Connection}

/-- The range of the stream is marked for another transmission, and the stream is flushable when that gave it
something to send. -/
structure Requeues (state : Resending) (streamId offset length : Nat) (fin : Bool) (old : Stream) (send : SendBuf)
    (conn : Connection) : Prop where
  placed : send.Placed
  marked : SendBuf.Marked old.send offset length send
  here : conn.streams.get streamId = some { old with send }
  elsewhere : ∀ id, id ≠ streamId → conn.streams.get id = state.conn.streams.get id
  flushable : conn.streams.flushable = if ({ old with send : Stream }.isFlushable || (length == 0 && fin)) &&
    !old.isFlushable then state.conn.streams.flushable.insert old.priorityKey else state.conn.streams.flushable
  rest : conn = { state.conn with streams := conn.streams }
  reset : conn.streams.reset = state.conn.streams.reset
  almostFull : conn.streams.almostFull = state.conn.streams.almostFull

theorem lostFrame_requeues (arranged : state.Arranged) (found : state.conn.streams.get streamId = some old)
    (requeued : state.conn.lostFrame (.streamHeader streamId offset length fin) = some conn) :
    ∃ send, Requeues state streamId offset length fin old send conn := by
  obtain ⟨send, same, placed, marked⟩ :=
    SendBuf.retransmit_marked (arranged.streams.placed streamId old found) offset length
  simp only [Connection.lostFrame, Connection.lostStream, found, same] at requeued
  cases requeued
  have put := StreamMap.set_put state.conn.streams streamId { old with send }
  refine ⟨send, placed, marked, ?_, ?_, ?_, rfl, ?_, ?_⟩
  · split
    · exact StreamMap.get_set ..
    · exact StreamMap.get_set ..
  · intro id different
    have kept : (state.conn.streams.set streamId { old with send }).get id = state.conn.streams.get id := by
      rw [StreamMap.get, put, if_neg different, StreamMap.get]
    split
    · exact kept
    · exact kept
  · simp [apply_ite StreamMap.flushable]
  · split <;> rfl
  · split <;> rfl

theorem sendable_of_isFlushable {stream : Stream} (flushable : stream.isFlushable = true) : stream.send.Sendable := by
  simp only [Stream.isFlushable, Bool.and_eq_true, decide_eq_true_eq] at flushable
  exact ⟨stream.send.offFront, flushable.2, SendBuf.unread_offFront flushable.1.2⟩

section

variable (requeues : Requeues state streamId offset length fin old send conn)

include requeues

theorem Requeues.fin_iff :
    old.priorityKey ∈ conn.streams.flushable ∨ send.Sendable ↔
      (old.priorityKey ∈ state.conn.streams.flushable ∨ old.send.Sendable) ∨ (length = 0 ∧ fin = true) ∨
        ∃ place < old.send.maxData, old.send.Returns offset length place := by
  have sendable := requeues.marked.sendable_iff
  rw [requeues.flushable]
  constructor
  · rintro (member | sends)
    · split at member
      · rename_i wakes
        simp only [Bool.and_eq_true, Bool.or_eq_true, beq_iff_eq] at wakes
        rcases wakes.1 with flushable | empty
        · exact (sendable.mp (sendable_of_isFlushable flushable)).imp .inr .inr
        · exact .inr (.inl empty)
      · exact .inl (.inl member)
    · exact (sendable.mp sends).imp .inr .inr
  · rintro ((member | sends) | empty | returns)
    · left
      split
      · exact StreamQueue.mem_insert.mpr (.inr member)
      · exact member
    · exact .inr (sendable.mpr (.inl sends))
    · by_cases flushable : old.isFlushable = true
      · exact .inr (sendable.mpr (.inl (sendable_of_isFlushable flushable)))
      · left
        rw [if_pos (by simp [empty, flushable])]
        exact StreamQueue.mem_insert.mpr (.inl rfl)
    · exact .inr (sendable.mpr (.inr returns))

section

variable (arranged : state.Arranged) (found : state.conn.streams.get streamId = some old)

include arranged found

theorem Requeues.fin_elsewhere
    {id : Nat} {stream : Stream}
    (present : state.conn.streams.get id = some stream) (different : id ≠ streamId) :
    stream.priorityKey ∈ conn.streams.flushable ↔ stream.priorityKey ∈ state.conn.streams.flushable := by
  have keys : stream.priorityKey ≠ old.priorityKey := by
    intro same
    apply different
    rw [← arranged.streams.keyed id stream present, same, arranged.streams.keyed streamId old found]
  rw [requeues.flushable]
  split
  · rw [StreamQueue.mem_insert, or_iff_right keys]
  · rfl

theorem Requeues.redone :
    Redone epoch state (.streamHeader streamId offset length fin) ({ state with conn }.countRetrans length) := by
  have known : ∀ id, (conn.streams.get id).isSome = (state.conn.streams.get id).isSome := by
    intro id
    by_cases same : id = streamId
    · rw [same, requeues.here, found]
      rfl
    · rw [requeues.elsewhere id same]
  refine ⟨⟨⟨?_, ?_⟩, arranged.crypto⟩, ⟨?_, ?_⟩, ?_⟩
  · intro id stream present
    by_cases same : id = streamId
    · subst same
      cases requeues.here.symm.trans present
      exact arranged.streams.keyed id old found
    · exact arranged.streams.keyed id stream ((requeues.elsewhere id same).symm.trans present)
  · intro id stream present
    by_cases same : id = streamId
    · subst same
      cases requeues.here.symm.trans present
      exact requeues.placed
    · exact arranged.streams.placed id stream ((requeues.elsewhere id same).symm.trans present)
  · intro id absent
    have different : id ≠ streamId := by
      rintro rfl
      rw [found] at absent
      cases absent
    exact (requeues.elsewhere id different).trans absent
  · intro id stream present
    by_cases same : id = streamId
    · subst same
      cases found.symm.trans present
      exact ⟨_, requeues.here, requeues.marked.maxData, fun _ _ _ => requeues.marked.returns_iff⟩
    · exact ⟨stream, (requeues.elsewhere id same).trans present, rfl, fun _ _ _ => Iff.rfl⟩
  · intro demand
    cases demand with
    | stream id place =>
      by_cases same : id = streamId
      · subst same
        simp [Met, Serves, Frame.Demands, countRetrans, requeues.here, found, requeues.marked.waits_iff]
      · simp [Met, Serves, Frame.Demands, countRetrans, requeues.elsewhere id same, same]
    | fin id =>
      by_cases same : id = streamId
      · subst same
        simpa [Met, Serves, Frame.Demands, countRetrans, requeues.here, found] using requeues.fin_iff
      · simp only [Met, countRetrans, requeues.elsewhere id same]
        rw [or_iff_left (by simp [Serves, Frame.Demands, same])]
        constructor
        · intro met stream present
          rw [← requeues.fin_elsewhere arranged found present same]
          exact met stream present
        · intro met stream present
          rw [requeues.fin_elsewhere arranged found present same]
          exact met stream present
    | resetStream id =>
      simp [Met, Serves, Frame.Demands, countRetrans, known, requeues.reset]
    | maxStreamData id => simp [Met, Serves, Frame.Demands, countRetrans, known, requeues.almostFull]
    | crypto | ack | handshakeDone => simp [Met, Serves, Frame.Demands, countRetrans]
    | maxData | newConnectionId | retireConnectionId =>
      rw [requeues.rest]
      simp [Met, Serves, Frame.Demands, countRetrans]

end

end

end Stream

section Control

def Demand.isControl : Demand → Bool
  | .crypto _ | .stream .. | .fin _ => false
  | .ack | .resetStream _ | .handshakeDone | .maxStreamData _ | .maxData | .newConnectionId _
  | .retireConnectionId _ => true

variable {conn : Connection}

theorem redone_of_control (single : Demand) (arranged : state.Arranged)
    (streams : after.conn.streams.streams = state.conn.streams.streams)
    (flushable : after.conn.streams.flushable = state.conn.streams.flushable)
    (crypto : after.cryptoStreams = state.cryptoStreams) (control : Demand.isControl single = true)
    (serves : ∀ demand, state.Serves frame demand ↔ demand = single) (met : ∀ demand, Demand.isControl demand = true →
      (after.Met epoch demand ↔ state.Met epoch demand ∨ demand = single)) : Redone epoch state frame after := by
  have get : ∀ id, after.conn.streams.get id = state.conn.streams.get id := fun id => by
    rw [StreamMap.get, StreamMap.get, streams]
  refine ⟨⟨⟨?_, ?_⟩, ?_⟩, alike_of_streams streams, fun demand => ?_⟩
  · exact fun id stream found => arranged.streams.keyed id stream ((get id).symm.trans found)
  · exact fun id stream found => arranged.streams.placed id stream ((get id).symm.trans found)
  · exact fun epoch => crypto ▸ arranged.crypto epoch
  · rw [serves demand]
    cases kind : Demand.isControl demand with
    | true => exact met demand kind
    | false =>
      have different : demand ≠ single := by
        rintro rfl
        rw [control] at kind
        cases kind
      rw [or_iff_left different]
      cases demand with
      | crypto place => simp [Met, crypto]
      | stream id place => simp [Met, get]
      | fin id => simp [Met, get, flushable]
      | ack | resetStream | handshakeDone | maxStreamData | maxData | newConnectionId | retireConnectionId =>
        cases kind

theorem ack_redone {ackDelay : Nat} {ranges : RangeSet} {ecnCounts : Option EcnCounts} (arranged : state.Arranged) :
    Redone epoch state (.ack ackDelay ranges ecnCounts)
      { state with ackElicited := Function.update state.ackElicited epoch true } := by
  refine redone_of_control .ack arranged rfl rfl rfl rfl ?_ ?_
  · simp [Serves, Frame.Demands]
  · intro demand control
    cases demand <;> simp [Met]

theorem handshakeDone_redone (arranged : state.Arranged) :
    Redone epoch state .handshakeDone { state with handshakeDoneSent := false } := by
  refine redone_of_control .handshakeDone arranged rfl rfl rfl rfl ?_ ?_
  · simp [Serves, Frame.Demands]
  · intro demand control
    cases demand <;> simp [Met]

variable {seqNum max streamId : Nat}

section

variable (arranged : state.Arranged)

include arranged

theorem newConnectionId_redone {retirePriorTo : Nat} {connId : List UInt8} {resetToken : Vector UInt8 16}
 : Redone epoch state (.newConnectionId seqNum retirePriorTo connId resetToken)
      { state with conn := { state.conn with ids := state.conn.ids.markAdvertiseNewScidSeq seqNum true } } := by
  refine redone_of_control (.newConnectionId seqNum) arranged rfl rfl rfl rfl ?_ ?_
  · simp [Serves, Frame.Demands]
  · intro demand control
    cases demand <;> simp [Met, ConnectionIdentifiers.markAdvertiseNewScidSeq]

theorem retireConnectionId_redone {retireDcidSeqs : ConnectionIdSeqSet}
    (inserted : state.conn.ids.retireDcidSeqs.insert seqNum = .ok retireDcidSeqs) :
    Redone epoch state (.retireConnectionId seqNum)
      { state with conn := { state.conn with ids := { state.conn.ids with retireDcidSeqs } } } := by
  rw [ConnectionIdSeqSet.insert] at inserted
  split at inserted
  · cases inserted
  cases inserted
  refine redone_of_control (.retireConnectionId seqNum) arranged rfl rfl rfl rfl ?_ ?_
  · simp [Serves, Frame.Demands]
  · intro demand control
    cases demand <;> simp [Met, List.mem_insert_iff, or_comm]

theorem maxData_redone :
    Redone epoch state (.maxData max) { state with conn := { state.conn with almostFull := true } } := by
  refine redone_of_control .maxData arranged rfl rfl rfl rfl ?_ ?_
  · simp [Serves, Frame.Demands]
  · intro demand control
    cases demand <;> simp [Met]

theorem resetStream_redone {errorCode finalSize : Nat}
    (requeued : state.conn.lostFrame (.resetStream streamId errorCode finalSize) = some conn) :
    Redone epoch state (.resetStream streamId errorCode finalSize) { state with conn } := by
  simp only [Connection.lostFrame] at requeued
  split at requeued
  · cases requeued
    refine redone_of_control (.resetStream streamId) arranged rfl rfl rfl rfl ?_ ?_
    · simp [Serves, Frame.Demands]
    · intro demand control
      cases demand with
      | resetStream id => by_cases same : id = streamId <;> simp [Met, StreamMap.insertReset, StreamMap.get, same]
      | _ => simp [Met, StreamMap.insertReset, StreamMap.get]
  · rename_i absent
    cases requeued
    apply redone_self arranged
    simp [Serves, Frame.Demands, Met, absent]

theorem maxStreamData_redone
    (requeued : state.conn.lostFrame (.maxStreamData streamId max) = some conn) :
    Redone epoch state (.maxStreamData streamId max) { state with conn } := by
  simp only [Connection.lostFrame] at requeued
  split at requeued
  · cases requeued
    refine redone_of_control (.maxStreamData streamId) arranged rfl rfl rfl rfl ?_ ?_
    · simp [Serves, Frame.Demands]
    · intro demand control
      cases demand with
      | maxStreamData id => by_cases same : id = streamId <;> simp [Met, StreamMap.insertAlmostFull, StreamMap.get, same]
      | _ => simp [Met, StreamMap.insertAlmostFull, StreamMap.get]
  · rename_i absent
    cases requeued
    apply redone_self arranged
    simp [Serves, Frame.Demands, Met, absent]

end

end Control

variable {result : Except Error Unit}

theorem idle_outcome (arranged : state.Arranged) (recovery : left.recovery = path.recovery)
    (admitted : state.conn.ids.retireDcidSeqs.admitFrame frame = .ok state.conn.ids.retireDcidSeqs)
    (nothing : ∀ demand, ¬ state.Serves frame demand) : Outcome epoch state path frame state left (.ok ()) :=
  outcome_of_redone (redone_self arranged fun demand serves => absurd serves (nothing demand)) recovery admitted

theorem resend_outcome (arranged : state.Arranged)
    (resent : state.resend epoch path frame = some (after, left, result)) :
    Outcome epoch state path frame after left result := by
  cases frame with
  | cryptoHeader offset length =>
    obtain ⟨send, requeued, resent⟩ := Option.bind_eq_some_iff.mp resent
    cases resent
    exact outcome_of_redone (crypto_redone arranged requeued) rfl rfl
  | streamHeader streamId offset length fin =>
    rw [resend] at resent
    split at resent
    · rename_i absent
      cases resent
      rw [Option.isNone_iff_eq_none] at absent
      refine outcome_of_redone (redone_self arranged fun demand serves => ?_) rfl rfl
      rcases serves with (⟨place, rfl, _⟩ | ⟨rfl, _⟩) | ⟨_, _, _, _, stream, same, _, found, _⟩
      · simp [Met, absent]
      · simp [Met, absent]
      · cases same
        rw [absent] at found
        cases found
    · rename_i present
      rw [Option.isNone_iff_eq_none] at present
      obtain ⟨old, found⟩ := Option.ne_none_iff_exists'.mp present
      obtain ⟨conn, requeued, resent⟩ := Option.bind_eq_some_iff.mp resent
      cases resent
      obtain ⟨send, requeues⟩ := lostFrame_requeues arranged found requeued
      refine outcome_of_redone (requeues.redone arranged found) rfl ?_
      show _ = Except.ok conn.ids.retireDcidSeqs
      rw [requeues.rest]
      rfl
  | ack ackDelay ranges ecnCounts =>
    cases resent
    exact outcome_of_redone (ack_redone arranged) rfl rfl
  | resetStream streamId errorCode finalSize =>
    obtain ⟨conn, requeued, resent⟩ := Option.bind_eq_some_iff.mp resent
    cases resent
    refine outcome_of_redone (resetStream_redone arranged requeued) rfl ?_
    simp only [Connection.lostFrame] at requeued
    split at requeued <;> cases requeued <;> rfl
  | maxStreamData streamId max =>
    obtain ⟨conn, requeued, resent⟩ := Option.bind_eq_some_iff.mp resent
    cases resent
    refine outcome_of_redone (maxStreamData_redone arranged requeued) rfl ?_
    simp only [Connection.lostFrame] at requeued
    split at requeued <;> cases requeued <;> rfl
  | maxData max =>
    cases resent
    exact outcome_of_redone (maxData_redone arranged) rfl rfl
  | handshakeDone =>
    rw [resend] at resent
    split at resent
    · rename_i acked
      cases resent
      refine outcome_of_redone (redone_self arranged fun demand serves => ?_) rfl rfl
      rcases serves with rfl | ⟨_, _, _, _, _, same, _⟩
      · exact .inl acked
      · cases same
    · cases resent
      exact outcome_of_redone (handshakeDone_redone arranged) rfl rfl
  | newConnectionId seqNum retirePriorTo connId resetToken =>
    cases resent
    exact outcome_of_redone (newConnectionId_redone arranged) rfl rfl
  | retireConnectionId seqNum =>
    rw [resend, ConnectionIdentifiers.markRetireDcidSeq, if_pos rfl] at resent
    cases inserted : state.conn.ids.retireDcidSeqs.insert seqNum with
    | error reason =>
      rw [inserted] at resent
      cases resent
      exact ⟨rfl, nofun, fun other same => by cases same; exact ⟨rfl, inserted⟩⟩
    | ok retireDcidSeqs =>
      rw [inserted] at resent
      cases resent
      exact outcome_of_redone (retireConnectionId_redone arranged inserted) rfl inserted
  | ping mtuProbe =>
    have recovered : after = state ∧ left.recovery = path.recovery ∧ result = .ok () := by
      cases mtuProbe with
      | none =>
        cases resent
        exact ⟨rfl, rfl, rfl⟩
      | some failedProbe =>
        rw [resend] at resent
        split at resent
        · cases resent
          exact ⟨rfl, rfl, rfl⟩
        · obtain ⟨pmtud, _, resent⟩ := Option.bind_eq_some_iff.mp resent
          cases resent
          exact ⟨rfl, rfl, rfl⟩
    obtain ⟨rfl, recovery, rfl⟩ := recovered
    exact idle_outcome arranged recovery rfl fun demand => by simp [Serves, Frame.Demands]
  | padding | stopSending | crypto | newToken | stream | maxStreamsBidi | maxStreamsUni | dataBlocked | streamDataBlocked
  | streamsBlockedBidi | streamsBlockedUni | pathChallenge | pathResponse | connectionClose | applicationClose | datagram
  | datagramHeader =>
    cases resent
    exact idle_outcome arranged rfl rfl fun demand => by simp [Serves, Frame.Demands]

end Resending

end Quiche
