import Quiche.Connection.Steady

namespace Quiche.Connection

open Data

variable {conn next : Connection} {call : Call} {id : Nat} {old new : Stream}

/-- What the receiving part of a stream keeps to. -/
structure RecvSound (isServer : Bool) (id : Nat) (stream : Stream) : Prop where
  spans : stream.recv.Spans
  reset_final : stream.recv.error.isSome → stream.recv.finOff.isSome
  drained : stream.recv.drain = true → stream.recv.data = .empty
  bidi : stream.bidi = isBidi id
  locality : stream.isLocal = isLocal id isServer
  untouched : isBidi id = false → isLocal id isServer = true → stream.recv.len = 0

/-- Only the limits of the receive side may differ. -/
structure SameRecv (old new : Stream) : Prop where
  recv : ∃ flowControl, new.recv = { old.recv with flowControl }
  bidi : new.bidi = old.bidi
  isLocal : new.isLocal = old.isLocal

theorem RecvSound.congr {isServer : Bool} (sound : RecvSound isServer id old) (same : SameRecv old new) :
    RecvSound isServer id new := by
  obtain ⟨flowControl, recv⟩ := same.recv
  constructor
  · rw [recv]
    exact ⟨sound.spans.received, sound.spans.off_le, sound.spans.final⟩
  · rw [recv]
    exact sound.reset_final
  · rw [recv]
    exact sound.drained
  · rw [same.bidi, sound.bidi]
  · rw [same.isLocal, sound.locality]
  · rw [recv]
    exact sound.untouched

theorem new_recvSound (isServer : Bool) (maxRxData maxTxData window : Nat) : RecvSound isServer id
      (Stream.new id maxRxData maxTxData (isBidi id) (Quiche.isLocal id isServer) window) where
  spans := RecvBuf.new_spans ..
  reset_final := by simp [Stream.new, RecvBuf.new]
  drained := by simp [Stream.new, RecvBuf.new]
  bidi := rfl
  locality := rfl
  untouched _ _ := rfl

theorem RecvSound.off_eq {isServer : Bool} {stream : Stream} (sound : RecvSound isServer id stream)
    (complete : stream.isComplete = true) : stream.recv.off = stream.recv.len := by
  have finished : stream.recv.isFin = true → stream.recv.off = stream.recv.len := by
    intro isFin
    exact sound.spans.final _ (eq_of_beq isFin)
  rw [Stream.isComplete] at complete
  split at complete
  · exact finished (Bool.and_eq_true_iff.mp complete).1
  · rename_i uni locally
    have length := sound.untouched (sound.bidi ▸ uni) (sound.locality ▸ locally)
    have read := sound.spans.off_le
    omega
  · exact finished complete

theorem step_steady (stepped : conn.step call = some next) (other : call.receives = false) :
    Steady SameRecv conn next call ∧ next.rxData = conn.rxData ∧
      next.flowControl.consumed = conn.flowControl.consumed ∧ next.isServer = conn.isServer := by
  obtain ⟨steady, framed⟩ := step_alters stepped
  refine ⟨steady.mono fun _ _ altered => ?_, framed.rxData other, framed.consumed other, framed.isServer⟩
  exact ⟨altered.recv other, altered.bidi, altered.isLocal⟩

section Sound

/-- Every stream of the connection is sound on its receiving side. -/
def AllSound (conn : Connection) : Prop := conn.Every (RecvSound conn.isServer)

theorem recvSound_fresh (isServer : Bool) : HoldsFresh isServer (RecvSound isServer) := fun _ _ _ _ => new_recvSound ..

theorem Origin.recvSound (origin : conn.Origin id old) (sound : conn.AllSound) : RecvSound conn.isServer id old :=
  origin.every sound (recvSound_fresh conn.isServer)

theorem AllSound.put (sound : conn.AllSound) (put : Put conn.streams.streams id new next.streams.streams)
    (changed : RecvSound conn.isServer id new) (isServer : next.isServer = conn.isServer) : next.AllSound := by
  rw [AllSound, isServer]
  exact Every.put sound put changed

theorem AllSound.left (sound : conn.AllSound) (left : conn.Left next id new)
    (changed : RecvSound conn.isServer id new) (isServer : next.isServer = conn.isServer) : next.AllSound := by
  rw [AllSound, isServer]
  exact Every.left sound left changed

theorem AllSound.steady (sound : conn.AllSound) (steady : Steady SameRecv conn next call)
    (isServer : next.isServer = conn.isServer) : next.AllSound := by
  rw [AllSound, isServer]
  exact steady.every sound (recvSound_fresh conn.isServer) fun _ _ _ before same => before.congr same

variable {isServer : Bool} {recv : RecvBuf}

/-- The peer may send on the stream. -/
def FromPeer (isServer : Bool) (id : Nat) : Prop := isBidi id = true ∨ isLocal id isServer = false

theorem FromPeer.untouched (fromPeer : FromPeer isServer id) (length : Nat) :
    isBidi id = false → isLocal id isServer = true → length = 0 := by
  intro uni locally
  rw [FromPeer, uni, locally] at fromPeer
  simp at fromPeer

section

variable (sound : RecvSound isServer id old)

include sound

theorem RecvSound.write {data : RangeBuf} (fromPeer : FromPeer isServer id)
    (written : old.recv.write data = some (recv, .ok ())) : RecvSound isServer id { old with recv } := by
  obtain ⟨spans, lengthened⟩ := sound.spans.write written
  refine ⟨spans, ?_, ?_, sound.bidi, sound.locality, fromPeer.untouched _⟩
  · intro reset
    rw [lengthened.error] at reset
    exact lengthened.finOff (.inr (sound.reset_final reset))
  · intro draining
    rw [lengthened.drain] at draining
    exact (lengthened.drained draining).trans (sound.drained draining)

theorem RecvSound.reset {errorCode finalSize delta : Nat}
    (fromPeer : FromPeer isServer id) (reset : old.recv.reset errorCode finalSize = some (recv, .ok delta)) :
    RecvSound isServer id { old with recv } := by
  have wasReset := sound.spans.reset sound.reset_final reset
  refine ⟨wasReset.spans, fun _ => wasReset.finOff, ?_, sound.bidi, sound.locality, fromPeer.untouched _⟩
  intro draining
  rw [wasReset.drain] at draining
  cases before : old.recv.error with
  | none => exact wasReset.drained before draining
  | some code =>
    rw [wasReset.again (by rw [before]; rfl)]
    exact sound.drained draining

theorem RecvSound.advance {out : List UInt8}
    (advanced : RecvBuf.Advanced old.recv out recv) (open_ : old.recv.drain = false) :
    RecvSound isServer id { old with recv } := by
  refine ⟨advanced.spans, ?_, ?_, sound.bidi, sound.locality, ?_⟩
  · rw [advanced.error, advanced.finOff]
    exact sound.reset_final
  · rw [advanced.drain, open_]
    simp
  · rw [advanced.len]
    exact sound.untouched

theorem RecvSound.open_ (readable : old.isReadable = true) :
    old.recv.drain = false := by
  by_contra draining
  have cleared := sound.drained (by simpa using draining)
  rw [Stream.isReadable, RecvBuf.ready, cleared] at readable
  cases readable

theorem RecvSound.shutdown
    (shut : old.recv.shutdown = (recv, .ok ())) : RecvSound isServer id { old with recv } := by
  obtain ⟨spans, _, rfl⟩ := sound.spans.shutdown shut
  exact ⟨spans, sound.reset_final, fun _ => rfl, sound.bidi, sound.locality, sound.untouched⟩

end

theorem AllSound.step (sound : conn.AllSound) (stepped : conn.step call = some next) : next.AllSound := by
  cases receives : call.receives with
  | false =>
    obtain ⟨steady, _, _, isServer⟩ := step_steady stepped receives
    exact sound.steady steady isServer
  | true =>
    cases call with
    | stream streamId data =>
      rcases processStream_spec (processed_spec stepped) with
        rfl | ⟨old, recv, touched, written, _, _, _, fromPeer, frame⟩
      · exact sound
      · exact sound.put touched.put ((touched.origin.recvSound sound).write fromPeer written)
          (by rw [frame])
    | resetStream streamId errorCode finalSize =>
      rcases processResetStream_spec (processed_spec stepped) with
        rfl | ⟨old, recv, delta, touched, reset, _, _, fromPeer, frame⟩
      · exact sound
      · exact sound.put touched.put ((touched.origin.recvSound sound).reset fromPeer reset)
          (by rw [frame])
    | streamRecv streamId cap =>
      obtain ⟨result, received⟩ := called_spec stepped
      rcases streamRecv_spec received with
        rfl | ⟨old, recv, found, readable, emitted, left, _, _, frame⟩
      · exact sound
      · have before := sound streamId old found
        obtain ⟨advanced, _⟩ := before.spans.emit emitted
        exact sound.left left (before.advance advanced (before.open_ readable)) (by rw [frame])
    | streamShutdown streamId direction err cwinAvailable =>
      cases direction with
      | write => contradiction
      | read =>
        obtain ⟨result, shut⟩ := called_spec stepped
        rcases streamShutdown_read_spec shut with rfl | ⟨old, recv, found, done, put, _, frame⟩
        · exact sound
        · exact sound.put put ((sound streamId old found).shutdown done) (by rw [frame])
    | _ => contradiction

end Sound

end Quiche.Connection
