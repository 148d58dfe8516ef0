import Quiche.Connection.Receive

namespace Quiche.Connection

open Data

namespace History

variable {history next : History} {call : Call}

section Charged

def receivedUpTo (conn : Connection) (streamId : Nat) : Nat := ((conn.streams.get streamId).map (·.recv.maxOff)).getD 0

/-- The stream is collected, so that its frames are dropped. -/
def Ignored (conn : Connection) (streamId : Nat) : Prop :=
  conn.streams.get streamId = none ∧ streamId ∈ conn.streams.collected

instance (conn : Connection) (streamId : Nat) : Decidable (Ignored conn streamId) := inferInstanceAs (Decidable (_ ∧ _))

/-- An empty frame without FIN does not go beyond what was received on its stream. -/
def StaysWithin (history : History) : Call → Prop
  | .stream streamId data =>
    data.isEmpty = true → data.fin = false → Ignored history.conn streamId ∨
      data.maxOff ≤ receivedUpTo history.conn streamId
  | _ => True

instance (history : History) (call : Call) : Decidable (history.StaysWithin call) := by
  rcases call with ⟨⟩
  case stream => exact inferInstanceAs (Decidable (_ → _ → _))
  all_goals exact .isTrue trivial

/-- The connection is charged for the highest offset of every stream that it ever opened. -/
structure Charged (history : History) : Prop where
  sound : history.conn.AllSound
  exact : history.conn.rxData = history.everOpened (·.recv.maxOff)

theorem maxOff_idle : Idle (·.recv.maxOff) := fun _ _ _ _ _ _ => rfl

theorem receivedUpTo_eq {conn : Connection} {streamId : Nat} {old : Stream} (origin : conn.Origin streamId old) :
    ¬ Ignored conn streamId ∧ receivedUpTo conn streamId = old.recv.maxOff := by
  cases origin with
  | live found =>
    refine ⟨fun ignored => ?_, by rw [receivedUpTo, found]; rfl⟩
    cases found.symm.trans ignored.1
  | created absent uncollected fresh =>
    obtain ⟨maxRxData, maxTxData, window, rfl, _⟩ := fresh
    exact ⟨fun ignored => uncollected ignored.2, by rw [receivedUpTo, absent]; rfl⟩

theorem Charged.touched {id delta : Nat} {old new : Stream} (charged : history.Charged) (sound : next.conn.AllSound)
    (touched : history.conn.Touched next.conn id old new)
    (closed : next.closed = history.closed ++ collected history.conn next.conn call)
    (received : new.recv.len = old.recv.len + delta)
    (rxData : next.conn.rxData = history.conn.rxData + delta) : next.Charged := by
  refine ⟨sound, ?_⟩
  have moved := touched.total maxOff_idle
  have before := charged.exact
  rw [everOpened] at before ⊢
  rw [closed, collected_of_put touched.put, List.append_nil]
  simp only [RecvBuf.maxOff] at moved before ⊢
  omega

theorem Charged.step (charged : history.Charged) (within : history.StaysWithin call)
    (stepped : machine.step history call = some next) : next.Charged := by
  obtain ⟨moved, closed⟩ := machine_step stepped
  have sound := charged.sound.step moved
  have unchanged : next.conn = history.conn → next.Charged := by
    intro same
    refine ⟨sound, ?_⟩
    rw [everOpened, closed, same, collected_of_same rfl, List.append_nil]
    exact charged.exact
  cases receives : call.receives with
  | false =>
    obtain ⟨steady, rxData, _, _⟩ := step_steady moved receives
    refine ⟨sound, ?_⟩
    have total := steady.total maxOff_idle fun old new same => by
      obtain ⟨flowControl, recv⟩ := same.recv
      rw [recv]
      rfl
    rw [rxData, charged.exact, everOpened, everOpened, closed, List.map_append, List.sum_append]
    omega
  | true =>
    cases call with
    | stream streamId data =>
      rcases processStream_spec (processed_spec moved) with
        same | ⟨old, recv, touched, written, rxData, _, _, _, _⟩
      · exact unchanged same
      · obtain ⟨_, lengthened⟩ := (touched.origin.recvSound charged.sound).spans.write written
        apply charged.touched sound touched closed ?_ rxData
        rw [lengthened.len]
        split
        · rename_i empty
          obtain ⟨processes, same⟩ := receivedUpTo_eq touched.origin
          have small := (within empty.1 empty.2).resolve_left processes
          rw [same, RecvBuf.maxOff] at small
          omega
        · omega
    | resetStream streamId errorCode finalSize =>
      rcases processResetStream_spec (processed_spec moved) with
        same | ⟨old, recv, delta, touched, reset, rxData, _, _, _⟩
      · exact unchanged same
      · have before := touched.origin.recvSound charged.sound
        have wasReset := before.spans.reset before.reset_final reset
        exact charged.touched sound touched closed wasReset.charged.symm rxData
    | streamRecv streamId cap =>
      obtain ⟨result, received⟩ := called_spec moved
      rcases streamRecv_spec received with
        same | ⟨old, recv, found, readable, emitted, left, _, _, frame⟩
      · exact unchanged same
      · obtain ⟨advanced, _⟩ := (charged.sound streamId old found).spans.emit emitted
        have rxData : next.conn.rxData = history.conn.rxData := by rw [frame]
        have total : total (·.recv.maxOff) next.conn.streams.streams +
              ((collected history.conn next.conn (.streamRecv streamId cap)).map (·.recv.maxOff)).sum =
            total (·.recv.maxOff) history.conn.streams.streams := left.total found rfl advanced.len
        refine ⟨sound, ?_⟩
        rw [rxData, charged.exact, everOpened, everOpened, closed, List.map_append, List.sum_append]
        omega
    | streamShutdown streamId direction err cwinAvailable =>
      cases direction with
      | write => contradiction
      | read =>
        obtain ⟨result, shut⟩ := called_spec moved
        rcases streamShutdown_read_spec shut with same | ⟨old, recv, found, done, put, _, frame⟩
        · exact unchanged same
        · obtain ⟨_, _, drained⟩ := (charged.sound streamId old found).spans.shutdown done
          have length : recv.len = old.recv.len + 0 := by rw [drained, Nat.add_zero]
          exact charged.touched sound ⟨.live found, put⟩ closed length (by rw [frame, Nat.add_zero])
    | _ => contradiction

section

variable (config : Config) (scid : List UInt8) (localAddr peerAddr : SocketAddr) (addressVerified isServer : Bool)

theorem start_allSound : (start config scid localAddr peerAddr addressVerified isServer).conn.AllSound := by
  intro id stream found
  cases found

theorem start_charged : (start config scid localAddr peerAddr addressVerified isServer).Charged :=
  ⟨start_allSound config scid localAddr peerAddr addressVerified isServer, rfl⟩

end

/-- When no empty frame without the FIN flag lies ahead of the data that was received, the
connection is charged for every received byte, once. -/
theorem rx_data_exact (config : Config) (scid : List UInt8) (localAddr peerAddr : SocketAddr)
    (addressVerified isServer : Bool) (calls : List Call) (history : History) (within : machine.Guarded StaysWithin
      (start config scid localAddr peerAddr addressVerified isServer) calls)
    (completed : machine.run (start config scid localAddr peerAddr addressVerified isServer) calls = some history) :
    history.conn.rxData = history.everOpened (·.recv.maxOff) := by
  have charged := machine.run_keeps_of_guarded
    (fun history call next charged within stepped => Charged.step charged within stepped)
    (start_charged config scid localAddr peerAddr addressVerified isServer) within completed
  exact charged.exact

def smallConfig : Config where
  localTransportParams := ⟨100, 50, 50, 50, 4, 4, 2⟩
  statelessResetToken := none
  txCapFactor := 1
  maxConnectionWindow := 100
  maxStreamWindow := 100
  maxAmplificationFactor := 3
  disableDcidReuse := false

/-- Reordered and repeated frames on one stream, and a reset of another. -/
theorem rx_data_exact_reordered : ∃ history, machine.run (start smallConfig [1] ⟨[1], 1⟩ ⟨[2], 2⟩ false true)
        [.stream 0 (.fromBytes [3, 4] 2 false), .stream 0 (.fromBytes [1, 2, 3] 0 false),
          .stream 0 (.fromBytes [] 4 false), .streamRecv 0 3, .resetStream 4 7 9] = some history ∧
      history.conn.rxData = history.everOpened (·.recv.maxOff) ∧ history.conn.rxData = 13 :=
  exists_reached_of (·.conn.rxData = 13) (by decide +kernel) fun _ completed charged =>
    ⟨rx_data_exact smallConfig [1] ⟨[1], 1⟩ ⟨[2], 2⟩ false true _ _ (by decide +kernel) completed, charged⟩

/-- An empty frame at offset 10 is charged with ten bytes that no stream received. -/
theorem empty_frame_charged : ∃ history, machine.run (start smallConfig [1] ⟨[1], 1⟩ ⟨[2], 2⟩ false true)
        [.stream 0 (.fromBytes [] 10 false)] = some history ∧
      ¬ history.conn.rxData = history.everOpened (·.recv.maxOff) := ⟨_, rfl, by decide⟩

end Charged

section Balanced

/-- The bytes that the application can still read, also those that wait for a gap to be
filled. -/
def deliverable (stream : Stream) : Nat :=
  if stream.recv.error.isSome || stream.recv.drain then 0 else stream.recv.maxOff - stream.recv.off

def deliverableOn (conn : Connection) (streamId : Nat) : Nat := ((conn.streams.get streamId).map deliverable).getD 0

def drains (conn : Connection) (streamId : Nat) : Bool :=
  ((conn.streams.get streamId).map (·.recv.isDraining)).getD false

/-- The call drops no byte that was charged and not yet read. -/
def DiscardsNothing (history : History) : Call → Prop
  | .stream streamId data =>
    data.isEmpty = true → data.fin = false → Ignored history.conn streamId ∨
      drains history.conn streamId = true ∨ data.maxOff ≤ receivedUpTo history.conn streamId
  | .resetStream streamId _ finalSize => Ignored history.conn streamId ∨
      finalSize = receivedUpTo history.conn streamId ∧ deliverableOn history.conn streamId = 0
  | .streamShutdown streamId .read _ _ => deliverableOn history.conn streamId = 0
  | _ => True

instance (history : History) (call : Call) : Decidable (history.DiscardsNothing call) := by
  rcases call with ⟨⟩
  case stream => exact inferInstanceAs (Decidable (_ → _ → _))
  case resetStream => exact inferInstanceAs (Decidable (_ ∨ _ ∧ _))
  case streamShutdown direction _ _ =>
    rcases direction with ⟨⟩
    · exact inferInstanceAs (Decidable (_ = _))
    · exact .isTrue trivial
  all_goals exact .isTrue trivial

/-- What the connection was charged for is consumed or still to be delivered. -/
structure Balanced (history : History) : Prop where
  sound : history.conn.AllSound
  exact : history.conn.rxData = history.conn.flowControl.consumed + total deliverable history.conn.streams.streams

variable {conn : Connection} {id : Nat} {old new : Stream}

theorem deliverable_idle : Idle deliverable := fun _ _ _ _ _ _ => rfl

theorem deliverable_of_reset (reset : new.recv.error.isSome) : deliverable new = 0 := by
  rw [deliverable, reset]
  rfl

theorem deliverable_of_drain (draining : new.recv.drain = true) : deliverable new = 0 := by
  rw [deliverable, draining, Bool.or_true]
  rfl

theorem deliverable_of_open (alive : new.recv.error = none) (open_ : new.recv.drain = false) :
    deliverable new = new.recv.len - new.recv.off := by
  rw [deliverable, alive, open_]
  rfl

theorem deliverable_le (stream : Stream) : deliverable stream ≤ stream.recv.len - stream.recv.off := by
  rw [deliverable]
  split
  · exact Nat.zero_le _
  · exact Nat.le_refl _

theorem deliverableOn_eq (origin : conn.Origin id old) : deliverableOn conn id = deliverable old := by
  cases origin with
  | live found => rw [deliverableOn, found]; rfl
  | created absent _ fresh =>
    obtain ⟨maxRxData, maxTxData, window, rfl, _⟩ := fresh
    rw [deliverableOn, absent]
    rfl

theorem drains_eq (origin : conn.Origin id old) : drains conn id = old.recv.drain := by
  cases origin with
  | live found => rw [drains, found]; rfl
  | created absent _ fresh =>
    obtain ⟨maxRxData, maxTxData, window, rfl, _⟩ := fresh
    rw [drains, absent]
    rfl

theorem Balanced.put (balanced : history.Balanced) (sound : next.conn.AllSound)
    (touched : history.conn.Touched next.conn id old new)
    (moved : next.conn.rxData + history.conn.flowControl.consumed + deliverable old =
      history.conn.rxData + next.conn.flowControl.consumed + deliverable new) : next.Balanced := by
  have totals := touched.total deliverable_idle
  have before := balanced.exact
  exact ⟨sound, by omega⟩

theorem Balanced.left (balanced : history.Balanced) (sound : next.conn.AllSound)
    (found : history.conn.streams.get id = some old) (left : history.conn.Left next.conn id new)
    (finished : new.isComplete = true → deliverable new = 0)
    (moved : next.conn.rxData + history.conn.flowControl.consumed + deliverable old =
      history.conn.rxData + next.conn.flowControl.consumed + deliverable new) : next.Balanced := by
  cases left with
  | kept put _ => exact balanced.put sound ⟨.live found, put⟩ moved
  | collected complete dropped _ =>
    have totals : total deliverable next.conn.streams.streams + deliverable old =
      total deliverable history.conn.streams.streams := dropped.total found
    have before := balanced.exact
    have nothing := finished complete
    exact ⟨sound, by omega⟩

theorem deliverable_complete {isServer : Bool} (sound : RecvSound isServer id new)
    (complete : new.isComplete = true) : deliverable new = 0 := by
  have read := sound.off_eq complete
  have bound := deliverable_le new
  omega

theorem deliverable_congr (same : SameRecv old new) : deliverable new = deliverable old := by
  obtain ⟨flowControl, recv⟩ := same.recv
  rw [deliverable, recv]
  rfl

theorem Balanced.steady (balanced : history.Balanced) (sound : next.conn.AllSound)
    (steady : Steady SameRecv history.conn next.conn call) (rxData : next.conn.rxData = history.conn.rxData)
    (consumed : next.conn.flowControl.consumed = history.conn.flowControl.consumed) : next.Balanced := by
  cases steady with
  | idle streams =>
    refine ⟨sound, ?_⟩
    rw [rxData, consumed, streams]
    exact balanced.exact
  | touched id old new touched same =>
    apply balanced.put sound touched
    rw [rxData, consumed, deliverable_congr same]
  | left id old new found same left _ =>
    apply balanced.left sound found left
    · exact deliverable_complete ((balanced.sound id old found).congr same)
    · rw [rxData, consumed, deliverable_congr same]

section Deltas

variable {isServer : Bool} {recv : RecvBuf}

theorem deliverable_write {data : RangeBuf} (sound : RecvSound isServer id old)
    (written : old.recv.write data = some (recv, .ok ()))
    (within : data.isEmpty = true → data.fin = false → old.recv.drain = true ∨ data.maxOff ≤ old.recv.len) :
    (data.maxOff - old.recv.len) + deliverable old =
      (if old.recv.drain then data.maxOff - old.recv.len else 0) + deliverable { old with recv } := by
  obtain ⟨_, lengthened⟩ := sound.spans.write written
  cases draining : old.recv.drain with
  | true =>
    rw [deliverable_of_drain draining, deliverable_of_drain (lengthened.drain.trans draining)]
    rfl
  | false =>
    rw [if_neg (by simp), Nat.zero_add]
    cases alive : old.recv.error with
    | some code =>
      have reset : old.recv.error.isSome := by rw [alive]; rfl
      have small := lengthened.known (sound.reset_final reset)
      rw [deliverable_of_reset reset, deliverable_of_reset (by rw [lengthened.error]; exact reset)]
      omega
    | none =>
      rw [deliverable_of_open alive draining,
        deliverable_of_open (lengthened.error.trans alive) (lengthened.drain.trans draining)]
      have read := sound.spans.off_le
      have moved : recv.len = old.recv.len + (data.maxOff - old.recv.len) := by
        rw [lengthened.len]
        split
        · rename_i empty
          have small := (within empty.1 empty.2).resolve_left (by simp [draining])
          omega
        · omega
      have off := lengthened.off
      dsimp only
      omega

theorem deliverable_reset {errorCode finalSize delta : Nat} (sound : RecvSound isServer id old)
    (reset : old.recv.reset errorCode finalSize = some (recv, .ok delta))
    (settled : finalSize = old.recv.len ∧ deliverable old = 0) :
    delta + deliverable old = deliverable { old with recv } := by
  have wasReset := sound.spans.reset sound.reset_final reset
  have charged := wasReset.charged
  rw [settled.2, deliverable_of_reset wasReset.error]
  cases alive : old.recv.error with
  | none =>
    have length := (wasReset.first alive).2
    omega
  | some code =>
    have same := wasReset.again (by rw [alive]; rfl)
    rw [same] at charged
    omega

theorem deliverable_emit {cap : Nat} {result : Except Error (List UInt8 × Bool)}
    (sound : RecvSound isServer id old) (readable : old.isReadable = true)
    (emitted : old.recv.emit cap = some (recv, result)) :
    deliverable old = (RecvBuf.output result).length + deliverable { old with recv } := by
  obtain ⟨advanced, nothing⟩ := sound.spans.emit emitted
  have open_ := sound.open_ readable
  cases alive : old.recv.error with
  | some code =>
    have reset : old.recv.error.isSome := by rw [alive]; rfl
    rw [nothing reset, deliverable_of_reset reset, deliverable_of_reset (by rw [advanced.error]; exact reset)]
    rfl
  | none =>
    rw [deliverable_of_open alive open_,
      deliverable_of_open (advanced.error.trans alive) (advanced.drain.trans open_)]
    have read := advanced.spans.off_le
    have off := advanced.off
    have len := advanced.len
    dsimp only
    omega

end Deltas

theorem Balanced.step (balanced : history.Balanced) (kept : history.DiscardsNothing call)
    (stepped : machine.step history call = some next) : next.Balanced := by
  obtain ⟨moved, closed⟩ := machine_step stepped
  have sound := balanced.sound.step moved
  have unchanged : next.conn = history.conn → next.Balanced := by
    intro same
    refine ⟨sound, ?_⟩
    rw [same]
    exact balanced.exact
  cases receives : call.receives with
  | false =>
    obtain ⟨steady, rxData, consumed, _⟩ := step_steady moved receives
    exact balanced.steady sound steady rxData consumed
  | true =>
    cases call with
    | stream streamId data =>
      rcases processStream_spec (processed_spec moved) with
        same | ⟨old, recv, touched, written, rxData, consumed, _, _, _⟩
      · exact unchanged same
      · have within : data.isEmpty = true → data.fin = false → old.recv.drain = true ∨ data.maxOff ≤ old.recv.len := by
          intro empty notFin
          obtain ⟨processes, same⟩ := receivedUpTo_eq touched.origin
          have allowed := (kept empty notFin).resolve_left processes
          rw [drains_eq touched.origin, same] at allowed
          exact allowed
        have delta := deliverable_write (touched.origin.recvSound balanced.sound) written within
        exact balanced.put sound touched (by omega)
    | resetStream streamId errorCode finalSize =>
      rcases processResetStream_spec (processed_spec moved) with
        same | ⟨old, recv, delta, touched, reset, rxData, _, _, frame⟩
      · exact unchanged same
      · obtain ⟨processes, same⟩ := receivedUpTo_eq touched.origin
        have settled := kept.resolve_left processes
        rw [same, deliverableOn_eq touched.origin] at settled
        have charged := deliverable_reset (touched.origin.recvSound balanced.sound) reset settled
        have consumed : next.conn.flowControl = history.conn.flowControl := by rw [frame]
        apply balanced.put sound touched
        rw [consumed]
        omega
    | streamRecv streamId cap =>
      obtain ⟨result, received⟩ := called_spec moved
      rcases streamRecv_spec received with
        same | ⟨old, recv, found, readable, emitted, left, consumed, _, frame⟩
      · exact unchanged same
      · have before := balanced.sound streamId old found
        obtain ⟨advanced, _⟩ := before.spans.emit emitted
        have read := deliverable_emit before readable emitted
        have rxData : next.conn.rxData = history.conn.rxData := by rw [frame]
        apply balanced.left sound found left
        · exact deliverable_complete (before.advance advanced (before.open_ readable))
        · omega
    | streamShutdown streamId direction err cwinAvailable =>
      cases direction with
      | write => contradiction
      | read =>
        obtain ⟨result, shut⟩ := called_spec moved
        rcases streamShutdown_read_spec shut with same | ⟨old, recv, found, done, put, _, frame⟩
        · exact unchanged same
        · obtain ⟨_, _, drained⟩ := (balanced.sound streamId old found).spans.shutdown done
          have settled : deliverable old = 0 := (deliverableOn_eq (.live found)).symm.trans kept
          have discarded : deliverable { old with recv } = 0 := deliverable_of_drain (by rw [drained])
          have rxData : next.conn.rxData = history.conn.rxData := by rw [frame]
          have consumed : next.conn.flowControl = history.conn.flowControl := by rw [frame]
          apply balanced.put sound ⟨.live found, put⟩
          rw [rxData, consumed, settled, discarded]
    | _ => contradiction

theorem start_balanced (config : Config) (scid : List UInt8) (localAddr peerAddr : SocketAddr)
    (addressVerified isServer : Bool) : (start config scid localAddr peerAddr addressVerified isServer).Balanced :=
  ⟨start_allSound config scid localAddr peerAddr addressVerified isServer, rfl⟩

/-- When only read data is discarded, every charged byte is consumed or can still be read;
a stream that was reset or shut down holds none of the latter. -/
theorem receive_window_kept (config : Config) (scid : List UInt8) (localAddr peerAddr : SocketAddr)
    (addressVerified isServer : Bool) (calls : List Call) (history : History) (kept : machine.Guarded DiscardsNothing
      (start config scid localAddr peerAddr addressVerified isServer) calls)
    (completed : machine.run (start config scid localAddr peerAddr addressVerified isServer) calls = some history) :
    history.conn.rxData = history.conn.flowControl.consumed + total deliverable history.conn.streams.streams := by
  have balanced := machine.run_keeps_of_guarded
    (fun history call next balanced kept stepped => Balanced.step balanced kept stepped)
    (start_balanced config scid localAddr peerAddr addressVerified isServer) kept completed
  exact balanced.exact

/-- One stream is read and then reset, another one shut down before more data arrives. -/
theorem receive_window_kept_read : ∃ history, machine.run (start smallConfig [1] ⟨[1], 1⟩ ⟨[2], 2⟩ false true)
        [.stream 0 (.fromBytes [1, 2, 3] 0 false), .stream 4 (.fromBytes [1] 0 false), .streamRecv 0 9,
          .resetStream 0 7 3, .streamRecv 4 9, .streamShutdown 4 .read 5 0,
          .stream 4 (.fromBytes [2, 3] 1 false), .stream 8 (.fromBytes [1, 2] 0 false)] = some history ∧
      history.conn.rxData = history.conn.flowControl.consumed + total deliverable history.conn.streams.streams ∧
      history.conn.flowControl.consumed = 6 :=
  exists_reached_of (·.conn.flowControl.consumed = 6) (by decide +kernel) fun _ completed consumed =>
    ⟨receive_window_kept smallConfig [1] ⟨[1], 1⟩ ⟨[2], 2⟩ false true _ _ (by decide +kernel) completed, consumed⟩

/-- Three bytes wait to be read when the stream is reset: nobody is credited with them. -/
theorem reset_leaks_window : ∃ history, machine.run (start smallConfig [1] ⟨[1], 1⟩ ⟨[2], 2⟩ false true)
        [.stream 0 (.fromBytes [1, 2, 3] 0 false), .resetStream 0 7 3] = some history ∧
      ¬ history.conn.rxData ≤ history.conn.flowControl.consumed + total deliverable history.conn.streams.streams :=
  ⟨_, rfl, by decide⟩

end Balanced

end History

end Quiche.Connection
