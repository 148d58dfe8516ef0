import Quiche.Connection.Collected
import Quiche.Connection.Send
import Quiche.Data.Ledger
import Quiche.Stream.SendBuf.Tracked

namespace Quiche

open Data

/-- The initial limits of streams are those of variable-length integers. -/
def TransportParams.Small (params : TransportParams) : Prop :=
  params.initialMaxStreamDataBidiLocal < 2 ^ 62 ∧ params.initialMaxStreamDataBidiRemote < 2 ^ 62 ∧
    params.initialMaxStreamDataUni < 2 ^ 62

instance (params : TransportParams) : Decidable params.Small := inferInstanceAs (Decidable (_ ∧ _ ∧ _))

theorem StreamMap.initialLimits_lt {id : Nat} {localParams peerParams : TransportParams} {isLocal : Bool}
    (small : peerParams.Small) : (initialLimits id localParams peerParams isLocal).2 < 2 ^ 62 := by
  obtain ⟨bidiLocal, bidiRemote, uni⟩ := small
  rw [initialLimits.eq_def]
  split
  · exact bidiRemote
  · exact uni
  · exact bidiLocal
  · exact Nat.two_pow_pos 62

namespace Connection

/-- A connection with the STREAM frames that its packets carried, and those of them that wait in
the recovery for `send_single` to send their data again. -/
structure Flight where
  conn : Connection
  sent : Ledger StreamHeader
  lostFrames : List StreamHeader

/-- What happens to a connection and its packets, each with one STREAM frame. A packet may be
acknowledged or declared lost at any time, but only one that is in flight is reported, so never
twice. A probe timeout has a copy of a frame sent while its packet stays in flight. -/
inductive Flight.Event where
  | call (call : Call)
  | send (left : Nat)
  | acked (index : Nat)
  | lost (index : Nat)
  | probed (index : Nat)

def Call.plain : Call → Bool
  | .ackedStream .. | .lostStream .. | .sendStream .. => false
  | .maxStreamData _ limit => limit < 2 ^ 62
  | .peerTransportParams peerParams _ => peerParams.Small
  | _ => true

namespace Flight

def start (config : Config) (scid : List UInt8) (localAddr peerAddr : SocketAddr)
    (addressVerified isServer : Bool) : Flight :=
  ⟨Connection.new config scid localAddr peerAddr addressVerified isServer, [], []⟩

def step (flight : Flight) : Event → Option Flight
  | .call call =>
    if call.plain then (flight.conn.step call).map fun conn => { flight with conn } else none
  | .send left => do
    -- The lost frames are processed before the packet is built.
    let conn ← flight.lostFrames.foldlM lostStream flight.conn
    let (conn, header) ← conn.sendStream left
    return ⟨conn, header.elim flight.sent flight.sent.send, []⟩
  | .acked index =>
    match flight.sent.resolve index .acked with
    | none => some flight
    | some (frame, sent) => do
      return { flight with conn := ← flight.conn.ackedStream frame.streamId frame.offset frame.length, sent }
  | .lost index =>
    match flight.sent.resolve index .lost with
    | none => some flight
    | some (frame, sent) => some { flight with sent, lostFrames := flight.lostFrames ++ [frame] }
  | .probed index =>
    match flight.sent[index]? with
    | some (frame, .inFlight) => some { flight with lostFrames := flight.lostFrames ++ [frame] }
    | _ => some flight

end Flight

variable {conn next : Connection} {call : Call} {id : Nat} {old new : Stream}

section SameData

/-- What the stream accepted and what was acknowledged stay, and it is emitted no less far. -/
structure SameData (old new : Stream) : Prop where
  tracked : old.send.Tracked → new.send.Tracked
  off : new.send.off = old.send.off
  acked : new.send.acked = old.send.acked
  emitOff : old.send.emitOff ≤ new.send.emitOff
  wasReset : new.send.WasReset ↔ old.send.WasReset
  bidi : new.bidi = old.bidi
  isLocal : new.isLocal = old.isLocal

theorem SameData.of_eq (send : new.send = old.send) (bidi : new.bidi = old.bidi)
    (isLocal : new.isLocal = old.isLocal) : SameData old new := by
  refine ⟨?_, ?_, ?_, ?_, ?_, bidi, isLocal⟩ <;> rw [send]
  exact id

theorem sameData_emit {outLen : Nat} {send : SendBuf} {out : List UInt8} {fin : Bool}
    (emitted : old.send.emit outLen = some (send, out, fin)) : SameData old { old with send } := by
  have tracked : old.send.Tracked → send.Tracked := fun tracked => (tracked.emit emitted).1
  obtain ⟨⟨_, _, _, rfl⟩, _⟩ := SendBuf.emit_frame emitted
  exact ⟨tracked, rfl, rfl, Nat.le_max_left _ _, Iff.rfl, rfl, rfl⟩

theorem sameData_retransmit {off len : Nat} {send : SendBuf}
    (retransmitted : old.send.retransmit off len = some send) : SameData old { old with send } := by
  have tracked : old.send.Tracked → send.Tracked := fun tracked => tracked.retransmit retransmitted
  obtain ⟨_, _, _, rfl⟩ := SendBuf.retransmit_frame retransmitted
  exact ⟨tracked, rfl, rfl, Nat.le_refl _, Iff.rfl, rfl, rfl⟩

/-- The counters of what was sent stay. -/
structure SameBooks (conn next : Connection) : Prop where
  isServer : next.isServer = conn.isServer
  txBuffered : next.txBuffered = conn.txBuffered
  limits : conn.peerTransportParams.Small → next.peerTransportParams.Small

theorem step_small (stepped : conn.step call = some next) (plain : call.plain = true)
    (small : conn.peerTransportParams.Small) : next.peerTransportParams.Small := by
  rcases (step_alters stepped).2.params with same | ⟨cwinAvailable, rfl⟩
  · rw [same]
    exact small
  · exact of_decide_eq_true plain

theorem step_sameData (stepped : conn.step call = some next) (plain : call.plain = true)
    (idles : call.idles = true) : Steady SameData conn next call ∧ SameBooks conn next := by
  obtain ⟨steady, framed⟩ := step_alters stepped
  have unsettled : ∀ id offset length, call ≠ .ackedStream id offset length := by
    rintro id offset length rfl
    cases plain
  refine ⟨steady.mono fun old new altered => ?_, framed.isServer, framed.txBuffered idles unsettled,
    step_small stepped plain⟩
  obtain ⟨send, _, bidi, isLocal⟩ := altered
  have resends := send idles
  generalize sends : old.send = before, sent : new.send = after at resends
  cases resends with
  | same => exact .of_eq (sent.trans sends.symm) bidi isLocal
  | limited streamId limit =>
    have small : limit < 2 ^ 62 := of_decide_eq_true plain
    subst sends
    refine ⟨fun tracked => ?_, ?_, ?_, ?_, ?_, bidi, isLocal⟩ <;> rw [sent]
    exacts [tracked.updateMaxData small, rfl, rfl, Nat.le_refl _, Iff.rfl]
  | acked | lost | sent => cases plain

end SameData

section Sending

/-- The frame carries what one `emit` of its stream gives. -/
structure Carries (streams : StreamMap) (header : StreamHeader) (result : StreamMap) (old : Stream)
    (send : SendBuf) (outLen : Nat) (out : List UInt8) : Prop where
  found : streams.get header.streamId = some old
  running : old.send.isStopped = false
  emitted : old.send.emit outLen = some (send, out, header.fin)
  offset : header.offset = old.send.offFront
  length : header.length = out.length
  put : Put streams.streams header.streamId { old with send } result.streams

theorem flushStreams_carries {fuel left : Nat} {streams result : StreamMap} {sent : Option StreamHeader}
    (flushed : flushStreams fuel streams left = some (result, sent)) : sent = none ∧ result.streams = streams.streams ∨
      ∃ header old send outLen out, sent = some header ∧ Carries streams header result old send outLen out := by
  induction fuel generalizing streams with
  | zero =>
    rw [flushStreams] at flushed
    split at flushed
    · cases flushed
      exact .inl ⟨rfl, rfl⟩
    · cases flushed
  | succ fuel ih =>
    have skipped : ∀ {key}, flushStreams fuel (streams.removeFlushable key) left = some (result, sent) →
        sent = none ∧ result.streams = streams.streams ∨ ∃ header old send outLen out, sent = some header ∧
            Carries streams header result old send outLen out := by
      intro key later
      rcases ih later with none | ⟨header, old, send, outLen, out, known, carries⟩
      · exact .inl none
      · exact .inr ⟨header, old, send, outLen, out, known, carries.found, carries.running, carries.emitted,
          carries.offset, carries.length, carries.put⟩
    rw [flushStreams] at flushed
    split at flushed
    · cases flushed
      exact .inl ⟨rfl, rfl⟩
    rename_i key front
    dsimp only at flushed
    split at flushed
    · exact skipped flushed
    rename_i old found
    split at flushed
    · exact skipped flushed
    rename_i running
    obtain ⟨hdrLen, _, flushed⟩ := Option.bind_eq_some_iff.mp flushed
    split at flushed
    · exact skipped flushed
    obtain ⟨⟨send, out, fin⟩, emitted, flushed⟩ := Option.bind_eq_some_iff.mp flushed
    cases flushed
    refine .inr ⟨_, old, send, _, out, rfl, found, by simpa using running, emitted, rfl, rfl, ?_⟩
    simpa [apply_ite StreamMap.streams] using StreamMap.set_put streams key.id { old with send }

theorem sendStream_carries {left : Nat} {sent : Option StreamHeader}
    (called : conn.sendStream left = some (next, sent)) :
    next = { conn with streams := next.streams } ∧ (sent = none ∧ next.streams.streams = conn.streams.streams ∨
        ∃ header old send outLen out, sent = some header ∧
          Carries conn.streams header next.streams old send outLen out) := by
  rw [sendStream] at called
  split at called
  · obtain ⟨⟨streams, frame⟩, flushed, called⟩ := Option.bind_eq_some_iff.mp called
    cases called
    exact ⟨rfl, flushStreams_carries flushed⟩
  · cases called
    exact ⟨rfl, .inl ⟨rfl, rfl⟩⟩

theorem Carries.steady {header : StreamHeader} {send : SendBuf} {outLen : Nat} {out : List UInt8}
    (carries : Carries conn.streams header next.streams old send outLen out) : Steady SameData conn next call :=
  .touched header.streamId old _ ⟨.live carries.found, carries.put⟩ (sameData_emit carries.emitted)

end Sending

section Seen

/-- The stream is or was there. -/
def Seen (conn : Connection) (id : Nat) : Prop := (conn.streams.get id).isSome = true ∨ id ∈ conn.streams.collected

theorem step_collected_subset (stepped : conn.step call = some next) :
    conn.streams.collected ⊆ next.streams.collected := by
  rcases step_collects stepped with ⟨same, _⟩ | ⟨streamId, _, ⟨same, _⟩ | ⟨inserted, _⟩⟩
  · rw [same]
  · rw [same]
  · rw [inserted]
    exact Finset.subset_insert ..

theorem Steady.seen {alike : Stream → Stream → Prop} (steady : Steady alike conn next call)
    (stepped : conn.step call = some next) (seen : conn.Seen id) : next.Seen id := by
  rcases seen with live | collected
  · have put : ∀ {other new}, Put conn.streams.streams other new next.streams.streams → next.Seen id := by
      intro other new put
      left
      rw [StreamMap.get, put]
      split
      · rfl
      · exact live
    cases steady with
    | idle streams =>
      left
      rw [StreamMap.get, streams]
      exact live
    | touched other old new touched _ => exact put touched.put
    | left other old new found _ left collects =>
      cases left with
      | kept kept _ => exact put kept
      | collected _ dropped _ =>
        by_cases same : id = other
        · subst same
          have absent : next.streams.get id = none := by rw [StreamMap.get, dropped, if_pos rfl]
          rcases step_collects stepped with
            ⟨_, none | rfl⟩ | ⟨streamId, collects', ⟨_, present⟩ | ⟨inserted, _⟩⟩
          · cases none.symm.trans collects
          · cases absent.symm.trans found
          · cases collects.symm.trans collects'
            rw [absent] at present
            cases present
          · cases collects.symm.trans collects'
            right
            rw [inserted]
            exact Finset.mem_insert_self ..
        · left
          rw [StreamMap.get, dropped, if_neg same]
          exact live
  · exact .inr (step_collected_subset stepped collected)

end Seen

section Sound

/-- The sending side is what the identifier of the stream says. -/
structure SendSound (isServer : Bool) (id : Nat) (stream : Stream) : Prop where
  tracked : stream.send.Tracked
  bidi : stream.bidi = isBidi id
  locality : stream.isLocal = Quiche.isLocal id isServer
  untouched : isBidi id = false → Quiche.isLocal id isServer = false → stream.send.off = 0

/-- Every stream has a sound sending side. -/
def AllSendSound (conn : Connection) : Prop := conn.Every (SendSound conn.isServer) ∧ conn.peerTransportParams.Small

theorem AllSendSound.origin (sound : conn.AllSendSound) (origin : conn.Origin id old) :
    SendSound conn.isServer id old := by
  cases origin with
  | live found => exact sound.1 id old found
  | created _ _ fresh =>
    obtain ⟨maxRxData, maxTxData, window, rfl, limits⟩ := fresh
    have small : maxTxData < 2 ^ 62 := by
      rw [show maxTxData = (maxRxData, maxTxData).2 from rfl, limits]
      exact StreamMap.initialLimits_lt sound.2
    exact ⟨SendBuf.new_tracked small, rfl, rfl, fun _ _ => rfl⟩

/-- The sending side stays sound and emits further only. -/
structure Evolves (isServer : Bool) (id : Nat) (old new : Stream) : Prop where
  sound : SendSound isServer id old → SendSound isServer id new
  emitOff : old.send.emitOff ≤ new.send.emitOff

theorem SameData.evolves (same : SameData old new) (isServer : Bool) : Evolves isServer id old new := by
  refine ⟨fun sound => ⟨same.tracked sound.tracked, same.bidi.trans sound.bidi,
    same.isLocal.trans sound.locality, fun uni remote => ?_⟩, same.emitOff⟩
  rw [same.off]
  exact sound.untouched uni remote

theorem SendSound.covered_of_complete {isServer : Bool} {stream : Stream} (sound : SendSound isServer id stream)
    (complete : stream.isComplete = true) {place : Nat} (below : place < stream.send.off) :
    Covered stream.send.acked.iter place := by
  rw [Stream.isComplete] at complete
  split at complete
  · exact sound.tracked.covered_of_complete (Bool.and_eq_true_iff.mp complete).2 below
  · exact sound.tracked.covered_of_complete complete below
  · rename_i uni remote
    have none := sound.untouched (sound.bidi ▸ uni) (sound.locality ▸ remote)
    omega

end Sound

section Changes

/-- At most one stream changes, or goes. -/
inductive Changes (conn next : Connection) (call : Call) : Prop where
  | idle (streams : next.streams.streams = conn.streams.streams)
  | touched (id : Nat) (old new : Stream) (touched : conn.Touched next id old new)
      (evolves : conn.AllSendSound → Evolves conn.isServer id old new)
  | left (id : Nat) (old new : Stream) (found : conn.streams.get id = some old)
      (left : conn.Left next id new) (collects : call.collects = some id)
      (evolves : conn.AllSendSound → Evolves conn.isServer id old new)

theorem Changes.steady (changes : Changes conn next call) : Steady (fun _ _ => True) conn next call := by
  cases changes with
  | idle streams => exact .idle streams
  | touched id old new touched _ => exact .touched id old new touched trivial
  | left id old new found left collects _ => exact .left id old new found trivial left collects

theorem changes_of_sameData (steady : Steady SameData conn next call) : Changes conn next call := by
  cases steady with
  | idle streams => exact .idle streams
  | touched id old new touched same => exact .touched id old new touched fun _ => same.evolves _
  | left id old new found same left collects =>
    exact .left id old new found left collects fun _ => same.evolves _

theorem Changes.sound (changes : Changes conn next call) (sound : conn.AllSendSound)
    (isServer : next.isServer = conn.isServer) (limits : next.peerTransportParams.Small) : next.AllSendSound := by
  refine ⟨?_, limits⟩
  rw [isServer]
  cases changes with
  | idle streams => exact sound.1.idle streams
  | touched id old new touched evolves =>
    exact sound.1.put touched.put ((evolves sound).sound (sound.origin touched.origin))
  | left id old new found left _ evolves =>
    exact sound.1.left left ((evolves sound).sound (sound.1 id old found))

theorem Seen.live (seen : conn.Seen id) (origin : conn.Origin id old) : conn.streams.get id = some old := by
  cases origin with
  | live found => exact found
  | created absent uncollected _ =>
    rcases seen with present | collected
    · rw [absent] at present
      cases present
    · exact absurd collected uncollected

theorem Changes.reached (changes : Changes conn next call) (sound : conn.AllSendSound) (seen : conn.Seen id)
    {bound : Nat} (reached : ∀ stream, conn.streams.get id = some stream → bound ≤ stream.send.emitOff) :
    ∀ stream, next.streams.get id = some stream → bound ≤ stream.send.emitOff := by
  have put : ∀ {other old new}, conn.streams.get other = some old →
      Put conn.streams.streams other new next.streams.streams → old.send.emitOff ≤ new.send.emitOff →
        ∀ stream, next.streams.get id = some stream → bound ≤ stream.send.emitOff := by
    intro other old new present put grown stream found
    rw [StreamMap.get, put] at found
    split at found
    · rename_i same
      cases found
      exact Nat.le_trans (reached old (same ▸ present)) grown
    · exact reached stream found
  cases changes with
  | idle streams =>
    intro stream found
    rw [StreamMap.get, streams] at found
    exact reached stream found
  | touched other old new touched evolves =>
    by_cases same : id = other
    · subst same
      exact put (seen.live touched.origin) touched.put (evolves sound).emitOff
    · intro stream found
      rw [StreamMap.get, touched.put, if_neg same] at found
      exact reached stream found
  | left other old new present left _ evolves =>
    cases left with
    | kept kept _ => exact put present kept (evolves sound).emitOff
    | collected _ dropped _ =>
      intro stream found
      rw [StreamMap.get, dropped] at found
      split at found
      · cases found
      · exact reached stream found

end Changes

end Connection

end Quiche
