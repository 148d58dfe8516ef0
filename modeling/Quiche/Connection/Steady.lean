import Quiche.Connection.Effect

namespace Quiche.Connection

open Data

variable {conn next : Connection} {call : Call} {id : Nat} {old new : Stream}

namespace History

def everOpened (weight : Stream → Nat) (history : History) : Nat :=
  total weight history.conn.streams.streams + (history.closed.map weight).sum

theorem machine_step {history next : History} (stepped : machine.step history call = some next) :
    history.conn.step call = some next.conn ∧
      next.closed = history.closed ++ collected history.conn next.conn call := by
  obtain ⟨conn, moved, same⟩ := Option.bind_eq_some_iff.mp stepped
  cases same
  exact ⟨moved, rfl⟩

end History

section Total

variable {weight : Stream → Nat}

/-- A weight that does not count what was never used. -/
def Idle (weight : Stream → Nat) : Prop :=
  ∀ id maxRxData maxTxData bidi isLocal window, weight (Stream.new id maxRxData maxTxData bidi isLocal window) = 0

theorem Touched.total (touched : conn.Touched next id old new) (idle : Idle weight) :
    total weight next.streams.streams + weight old = total weight conn.streams.streams + weight new := by
  cases touched.origin with
  | live found => exact touched.put.total found
  | created absent _ fresh =>
    obtain ⟨maxRxData, maxTxData, window, rfl, _⟩ := fresh
    rw [touched.put.total_new absent, idle]
    rfl

theorem Left.total (left : conn.Left next id new) (found : conn.streams.get id = some old)
    (collects : call.collects = some id) (same : weight new = weight old) :
    total weight next.streams.streams + ((History.collected conn next call).map weight).sum =
      total weight conn.streams.streams := by
  rw [History.collected, collects]
  dsimp only
  cases left with
  | kept put _ =>
    have present : next.streams.get id = some new := by rw [StreamMap.get, put, if_pos rfl]
    have moved : Data.total weight next.streams.streams + weight old =
        Data.total weight conn.streams.streams + weight new := put.total found
    rw [present]
    simp only [Option.isNone_some, Bool.false_eq_true, if_false, List.map_nil, List.sum_nil]
    omega
  | collected _ dropped _ =>
    have absent : next.streams.get id = none := by rw [StreamMap.get, dropped, if_pos rfl]
    have moved : Data.total weight next.streams.streams + weight old =
        Data.total weight conn.streams.streams := dropped.total found
    rw [absent, found]
    simp only [Option.isNone_none, if_true, Option.toList_some, List.map_cons, List.map_nil, List.sum_cons,
      List.sum_nil]
    omega

theorem collected_eq_nil (kept : ∀ id, (conn.streams.get id).isSome → (next.streams.get id).isSome) :
    History.collected conn next call = [] := by
  rw [History.collected]
  split
  · rfl
  · rename_i streamId _
    split
    · rename_i absent
      have before : conn.streams.get streamId = none := by
        by_contra present
        have stays := kept streamId (Option.isSome_iff_ne_none.mpr present)
        rw [Option.isNone_iff_eq_none.mp absent] at stays
        contradiction
      rw [before]
      rfl
    · rfl

theorem collected_of_same (streams : next.streams.streams = conn.streams.streams) :
    History.collected conn next call = [] := by
  apply collected_eq_nil
  intro id present
  rw [StreamMap.get, streams]
  exact present

theorem collected_of_put (put : Put conn.streams.streams id new next.streams.streams) :
    History.collected conn next call = [] := by
  apply collected_eq_nil
  intro other present
  rw [StreamMap.get, put]
  split
  · rfl
  · exact present

end Total

section Every

variable {holds : Nat → Stream → Prop}

/-- Every stored stream has the property. -/
def Every (holds : Nat → Stream → Prop) (conn : Connection) : Prop :=
  ∀ id stream, conn.streams.get id = some stream → holds id stream

/-- A new stream has the property. -/
def HoldsFresh (isServer : Bool) (holds : Nat → Stream → Prop) : Prop := ∀ id maxRxData maxTxData window,
    holds id (Stream.new id maxRxData maxTxData (isBidi id) (isLocal id isServer) window)

theorem Origin.every (origin : conn.Origin id old) (every : conn.Every holds)
    (fresh : HoldsFresh conn.isServer holds) : holds id old := by
  cases origin with
  | live found => exact every id old found
  | created _ _ made =>
    obtain ⟨maxRxData, maxTxData, window, rfl, _⟩ := made
    exact fresh id maxRxData maxTxData window

theorem Every.idle (every : conn.Every holds) (streams : next.streams.streams = conn.streams.streams) :
    next.Every holds := by
  intro id stream found
  rw [StreamMap.get, streams] at found
  exact every id stream found

theorem Every.put (every : conn.Every holds) (put : Put conn.streams.streams id new next.streams.streams)
    (changed : holds id new) : next.Every holds := by
  intro other stream found
  rw [StreamMap.get, put] at found
  split at found
  · rename_i same
    cases found
    exact same ▸ changed
  · exact every other stream found

theorem Every.left (every : conn.Every holds) (left : conn.Left next id new) (changed : holds id new) :
    next.Every holds := by
  cases left with
  | kept put _ => exact every.put put changed
  | collected _ dropped _ =>
    intro other stream found
    rw [StreamMap.get, dropped] at found
    split at found
    · cases found
    · exact every other stream found

end Every

section Steady

variable {alike : Stream → Stream → Prop}

/-- A step after which the streams are like before: at most one of them differs, and may
have been collected. -/
inductive Steady (alike : Stream → Stream → Prop) (conn next : Connection) (call : Call) : Prop where
  | idle (streams : next.streams.streams = conn.streams.streams)
  | touched (id : Nat) (old new : Stream) (touched : conn.Touched next id old new) (same : alike old new)
  | left (id : Nat) (old new : Stream) (found : conn.streams.get id = some old) (same : alike old new)
      (left : conn.Left next id new) (collects : call.collects = some id)

section

variable (steady : Steady alike conn next call)

include steady

theorem Steady.total {weight : Stream → Nat} (idle : Idle weight)
    (congr : ∀ old new, alike old new → weight new = weight old) :
    total weight next.streams.streams + ((History.collected conn next call).map weight).sum =
      total weight conn.streams.streams := by
  cases steady with
  | idle streams =>
    rw [collected_of_same streams, streams]
    rfl
  | touched id old new touched same =>
    have moved := touched.total idle
    have equal := congr old new same
    rw [collected_of_put touched.put, List.map_nil, List.sum_nil]
    omega
  | left id old new found same left collects => exact left.total found collects (congr old new same)

theorem Steady.every {holds : Nat → Stream → Prop}
    (every : conn.Every holds) (fresh : HoldsFresh conn.isServer holds)
    (congr : ∀ id old new, holds id old → alike old new → holds id new) : next.Every holds := by
  cases steady with
  | idle streams => exact every.idle streams
  | touched id old new touched same =>
    exact every.put touched.put (congr id old new (touched.origin.every every fresh) same)
  | left id old new found same left => exact every.left left (congr id old new (every id old found) same)

theorem Steady.mono {other : Stream → Stream → Prop}
    (weaker : ∀ old new, alike old new → other old new) : Steady other conn next call := by
  cases steady with
  | idle streams => exact .idle streams
  | touched id old new touched same => exact .touched id old new touched (weaker old new same)
  | left id old new found same left collects => exact .left id old new found (weaker old new same) left collects

end

end Steady

section Altered

def Call.receives : Call → Bool
  | .stream .. | .resetStream .. | .streamRecv .. | .streamShutdown _ .read _ _ => true
  | _ => false

def Call.credits : Call → Bool
  | .stream .. | .streamRecv .. | .updateFlowControl .. => true
  | _ => false

def Call.idles : Call → Bool
  | .stopSending .. | .streamSend .. | .streamSendZc .. | .streamShutdown _ .write _ _ => false
  | _ => true

def Call.spends : Call → Bool
  | .stopSending .. | .maxData .. | .peerTransportParams .. | .streamSend .. | .streamSendZc ..
  | .streamShutdown _ .write _ _ | .updateTxCap .. => true
  | _ => false

theorem idles_of_spends (other : call.spends = false) : call.idles = true := by
  cases call with
  | streamShutdown streamId direction => cases direction <;> first | rfl | cases other
  | _ => first | rfl | cases other

/-- What a call that accepts no data and ends nothing does to the data that is sent. -/
inductive Resends : Call → SendBuf → SendBuf → Prop where
  | same (call : Call) (send : SendBuf) : Resends call send send
  | limited (streamId limit : Nat) (send : SendBuf) :
    Resends (.maxStreamData streamId limit) send (send.updateMaxData limit)
  | acked (streamId : Nat) {offset length : Nat} {send dropped : SendBuf}
    (acked : send.ackAndDrop offset length = some dropped) : Resends (.ackedStream streamId offset length) send dropped
  | lost {lost : StreamHeader} {send requeued : SendBuf}
    (retransmitted : send.retransmit lost.offset lost.length = some requeued) :
    Resends (.lostStream lost) send requeued
  | sent (left : Nat) {outLen : Nat} {send after : SendBuf} {out : List UInt8} {fin : Bool}
    (emitted : send.emit outLen = some (after, out, fin)) : Resends (.sendStream left) send after

/-- What a call does to the stream that it concerns. -/
structure Altered (call : Call) (old new : Stream) : Prop where
  send : call.idles = true → Resends call old.send new.send
  recv : call.receives = false → ∃ flowControl, new.recv = { old.recv with flowControl }
  bidi : new.bidi = old.bidi
  isLocal : new.isLocal = old.isLocal

/-- The connection-level limits and what was charged to them stay. -/
structure SameBudget (conn next : Connection) : Prop where
  txData : next.txData = conn.txData
  txCap : next.txCap = conn.txCap
  maxTxData : next.maxTxData = conn.maxTxData
  txCapFactor : next.txCapFactor = conn.txCapFactor

/-- What a call leaves of the connection beside its streams. -/
structure Framed (call : Call) (conn next : Connection) : Prop where
  isServer : next.isServer = conn.isServer
  params : next.peerTransportParams = conn.peerTransportParams ∨
    ∃ cwinAvailable, call = .peerTransportParams next.peerTransportParams cwinAvailable
  rxData : call.receives = false → next.rxData = conn.rxData
  consumed : call.receives = false → next.flowControl.consumed = conn.flowControl.consumed
  control : call.credits = false → next.flowControl = conn.flowControl ∧ next.almostFull = conn.almostFull
  budget : call.spends = false → SameBudget conn next
  txBuffered : call.idles = true → (∀ id offset length, call ≠ .ackedStream id offset length) →
    next.txBuffered = conn.txBuffered

theorem Framed.of_streams (frame : next = { conn with streams := next.streams }) : Framed call conn next := by
  rw [frame]
  exact ⟨rfl, .inl rfl, fun _ => rfl, fun _ => rfl, fun _ => ⟨rfl, rfl⟩, fun _ => ⟨rfl, rfl, rfl, rfl⟩, fun _ _ => rfl⟩

theorem Wrote.alters {Result : Type} {len : Nat} {fin : Bool}
    {writeFn : SendBuf → Nat → Bool → Option (SendBuf × Except Error (Nat × Result))}
    (wrote : conn.Wrote next id len fin writeFn) (active : call.idles = false) (spends : call.spends = true) :
    Steady (Altered call) conn next call ∧ Framed call conn next := by
  have altered : ∀ old send, Altered call old { old with send } := fun old _ =>
    ⟨fun idles => (by cases active.symm.trans idles), fun _ => ⟨old.recv.flowControl, rfl⟩, rfl, rfl⟩
  have framed : ∀ streams blockedLimit txCap txData txBuffered, next = { conn with
      streams, blockedLimit, txCap, txData, txBuffered } → Framed call conn next := by
    rintro streams blockedLimit txCap txData txBuffered rfl
    exact ⟨rfl, .inl rfl, fun _ => rfl, fun _ => rfl, fun _ => ⟨rfl, rfl⟩,
      fun other => (by cases spends.symm.trans other), fun idles => (by cases active.symm.trans idles)⟩
  cases wrote with
  | refused frame => exact ⟨.idle (by rw [frame]), framed _ _ _ _ _ frame⟩
  | waiting old touched _ frame => exact ⟨.touched id old _ touched (altered old old.send), framed _ _ _ _ _ frame⟩
  | failed old send _ _ touched _ frame => exact ⟨.touched id old _ touched (altered old send), framed _ _ _ _ _ frame⟩
  | wrote old send _ _ _ _ touched _ _ frame => exact ⟨.touched id old _ touched (altered old _), framed _ _ _ _ _ frame⟩

theorem step_alters (stepped : conn.step call = some next) :
    Steady (Altered call) conn next call ∧ Framed call conn next := by
  have unmet : ∀ {P : Prop}, true = false → P := fun other => (by cases other)
  have idle : ∀ {P : Prop}, false = true → P := fun idles => (by cases idles)
  have unchanged : Steady (Altered call) conn conn call ∧ Framed call conn conn := ⟨.idle rfl, .of_streams rfl⟩
  have received : ∀ {old : Stream} {recv}, call.receives = true → Altered call old { old with recv } :=
    fun receives => ⟨fun _ => .same _ _, fun other => (by cases receives.symm.trans other), rfl, rfl⟩
  have kept : ∀ old : Stream, Altered call old old := fun old =>
    ⟨fun _ => .same _ _, fun _ => ⟨old.recv.flowControl, rfl⟩, rfl, rfl⟩
  have sent : ∀ {old : Stream} {send}, (call.idles = true → Resends call old.send send) →
      Altered call old { old with send } := fun resends => ⟨resends, fun _ => ⟨_, rfl⟩, rfl, rfl⟩
  cases call with
  | stream streamId data =>
    rcases processStream_spec (processed_spec stepped) with rfl | ⟨old, recv, touched, _, _, _, _, _, frame⟩
    · exact unchanged
    · refine ⟨.touched streamId old _ touched (received rfl), ?_⟩
      rw [frame]
      exact ⟨rfl, .inl rfl, unmet, unmet, unmet, fun _ => ⟨rfl, rfl, rfl, rfl⟩, fun _ _ => rfl⟩
  | resetStream streamId errorCode finalSize =>
    rcases processResetStream_spec (processed_spec stepped) with rfl | ⟨old, recv, delta, touched, _, _, _, _, frame⟩
    · exact unchanged
    · refine ⟨.touched streamId old _ touched (received rfl), ?_⟩
      rw [frame]
      exact ⟨rfl, .inl rfl, unmet, unmet, fun _ => ⟨rfl, rfl⟩, fun _ => ⟨rfl, rfl, rfl, rfl⟩, fun _ _ => rfl⟩
  | stopSending streamId errorCode =>
    rcases processStopSending_spec (processed_spec stepped) with ⟨_, rfl⟩ | ⟨old, send, _, touched, _, _, _, frame⟩
    · exact unchanged
    · refine ⟨.touched streamId old _ touched (sent idle), ?_⟩
      rw [frame]
      exact ⟨rfl, .inl rfl, fun _ => rfl, fun _ => rfl, fun _ => ⟨rfl, rfl⟩, unmet, idle⟩
  | maxData limit =>
    cases stepped
    exact ⟨.idle rfl, rfl, .inl rfl, fun _ => rfl, fun _ => rfl, fun _ => ⟨rfl, rfl⟩, unmet, fun _ _ => rfl⟩
  | maxStreamData streamId limit =>
    rcases processMaxStreamData_spec (Option.some.inj (processed_spec stepped)) with
      rfl | ⟨old, _, touched, rfl, _, frame⟩
    · exact unchanged
    · exact ⟨.touched streamId old _ touched (sent fun _ => .limited streamId limit old.send), .of_streams frame⟩
  | peerTransportParams peerParams cwinAvailable =>
    obtain ⟨updated, capped, finished⟩ := Option.bind_eq_some_iff.mp (processed_spec stepped)
    obtain ⟨_, frame⟩ := updateTxCap_spec capped
    subst frame
    dsimp only at finished
    split at finished
    · cases finished
    · cases finished
      exact ⟨.idle rfl, rfl, .inr ⟨cwinAvailable, rfl⟩, fun _ => rfl, fun _ => rfl, fun _ => ⟨rfl, rfl⟩, unmet,
        fun _ _ => rfl⟩
  | streamRecv streamId cap =>
    obtain ⟨result, called⟩ := called_spec stepped
    rcases streamRecv_spec called with rfl | ⟨old, recv, found, _, _, left, _, _, frame⟩
    · exact unchanged
    · refine ⟨.left streamId old { old with recv } found (received rfl) left rfl, ?_⟩
      rw [frame]
      exact ⟨rfl, .inl rfl, unmet, unmet, unmet, fun _ => ⟨rfl, rfl, rfl, rfl⟩, fun _ _ => rfl⟩
  | streamSend streamId buf fin =>
    obtain ⟨result, called⟩ := called_spec stepped
    exact (streamDoSend_spec called).alters rfl rfl
  | streamSendZc streamId buf len fin =>
    obtain ⟨result, called⟩ := called_spec stepped
    exact (streamDoSend_spec called).alters rfl rfl
  | streamPriority streamId urgency incremental =>
    rcases streamPriority_spec (Prod.ext (Option.some.inj stepped) rfl) with
      rfl | ⟨old, frame, ⟨touched, _⟩ | ⟨touched, _⟩⟩
    · exact unchanged
    · exact ⟨.touched streamId old old touched (kept old), .of_streams frame⟩
    · exact ⟨.touched streamId old _ touched ⟨fun _ => .same _ _, fun _ => ⟨_, rfl⟩, rfl, rfl⟩, .of_streams frame⟩
  | streamShutdown streamId direction err cwinAvailable =>
    obtain ⟨result, shut⟩ := called_spec stepped
    cases direction with
    | read =>
      rcases streamShutdown_read_spec shut with rfl | ⟨old, recv, found, _, put, _, frame⟩
      · exact unchanged
      · exact ⟨.touched streamId old _ ⟨.live found, put⟩ (received rfl), .of_streams frame⟩
    | write =>
      rcases streamShutdown_write_spec shut with ⟨rfl, _⟩ | ⟨old, send, _, _, found, _, _, put, _, _, frame⟩
      · exact unchanged
      · refine ⟨.touched streamId old _ ⟨.live found, put⟩ (sent idle), ?_⟩
        rw [frame]
        exact ⟨rfl, .inl rfl, fun _ => rfl, fun _ => rfl, fun _ => ⟨rfl, rfl⟩, unmet, idle⟩
  | ackedStream streamId offset length =>
    rcases ackedStream_spec stepped with ⟨_, rfl⟩ | ⟨old, send, found, dropped, left, frame⟩
    · exact unchanged
    · refine ⟨.left streamId old { old with send } found (sent fun _ => .acked streamId dropped) left rfl, ?_⟩
      rw [frame]
      exact ⟨rfl, .inl rfl, fun _ => rfl, fun _ => rfl, fun _ => ⟨rfl, rfl⟩, fun _ => ⟨rfl, rfl, rfl, rfl⟩,
        fun _ other => absurd rfl (other streamId offset length)⟩
  | ackedResetStream streamId =>
    rcases ackedResetStream_spec stepped with rfl | ⟨old, found, left, frame⟩
    · exact unchanged
    · exact ⟨.left streamId old old found (kept old) left rfl, .of_streams frame⟩
  | lostStream lost =>
    rcases lostStream_spec stepped with rfl | ⟨old, send, found, requeued, put, _, frame⟩
    · exact unchanged
    · exact ⟨.touched lost.streamId old _ ⟨.live found, put⟩ (sent fun _ => .lost requeued), .of_streams frame⟩
  | sendStream left =>
    obtain ⟨⟨sender, header⟩, sending, rfl⟩ := Option.map_eq_some_iff.mp stepped
    rcases sendStream_spec sending with rfl | ⟨_, flushed, frame⟩
    · exact unchanged
    · rcases flushStreams_streams flushed with same | ⟨streamId, old, send, _, _, _, found, emitted, put⟩
      · exact ⟨.idle same, .of_streams frame⟩
      · exact ⟨.touched streamId old _ ⟨.live found, put⟩ (sent fun _ => .sent left emitted), .of_streams frame⟩
  | updateTxCap cwinAvailable =>
    obtain ⟨_, frame⟩ := updateTxCap_spec stepped
    rw [frame]
    exact ⟨.idle rfl, rfl, .inl rfl, fun _ => rfl, fun _ => rfl, fun _ => ⟨rfl, rfl⟩, unmet, fun _ _ => rfl⟩
  | updateFlowControl control =>
    cases stepped
    exact ⟨.idle rfl, rfl, .inl rfl, fun _ => rfl, fun _ => rfl, unmet, fun _ => ⟨rfl, rfl, rfl, rfl⟩, fun _ _ => rfl⟩
  | updateStreamFlowControl streamId control =>
    rcases updateStreamFlowControl_spec conn streamId control with same | ⟨old, flowControl, found, changed⟩
    · cases stepped
      rw [same]
      exact unchanged
    · cases stepped
      rw [changed]
      exact ⟨.touched streamId old _ ⟨.live found, StreamMap.set_put conn.streams streamId _⟩
        ⟨fun _ => .same _ _, fun _ => ⟨flowControl, rfl⟩, rfl, rfl⟩, .of_streams rfl⟩
  | updateMaxStreams peerBidi peerUni localBidi localUni =>
    cases stepped
    exact ⟨.idle rfl, .of_streams rfl⟩

end Altered

end Quiche.Connection
