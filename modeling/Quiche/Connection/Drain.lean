import Quiche.Connection.Credit
import Quiche.Connection.Flight
import Quiche.Connection.Flush

namespace Quiche

open Data

namespace RecvBuf

variable {recv next : RecvBuf}

/-- Nothing is stored, and nothing that arrives will be. -/
structure Drained (recv : RecvBuf) : Prop where
  draining : recv.drain = true
  empty : recv.data = .empty

theorem Drained.not_ready (drained : recv.Drained) : recv.ready = false := by
  rw [ready, drained.empty]
  rfl

theorem Drained.write {buf : RangeBuf} {result : Except Error Unit} (drained : recv.Drained)
    (written : recv.write buf = some (next, result)) : next.Drained := by
  by_cases bound : buf.maxOff < 2 ^ 64
  swap
  · rw [RecvBuf.write, if_pos (Nat.not_lt.mp bound)] at written
    cases written
  have marked : (recv.mark buf).Drained :=
    ⟨(mark_drain recv buf).trans drained.draining, (mark_data recv buf).trans drained.empty⟩
  rcases write_admission recv buf bound with ⟨error, refused⟩ | ⟨_, accepted⟩
  · rw [refused] at written
    cases written
    exact drained
  rw [accepted] at written
  split at written
  · cases written
    exact drained
  split at written
  · cases written
    exact marked
  split at written
  · cases written
    exact marked
  · obtain ⟨looped, finished, same⟩ := Option.map_eq_some_iff.mp written
    cases same
    have none : ∀ entry ∈ (recv.mark buf).data.entries, entry.2.maxOff ≤ (recv.mark buf).len := by
      rw [marked.empty]
      exact fun _ member => absurd member List.not_mem_nil
    obtain ⟨_, _, kept, frame⟩ := writeLoop_len finished none
    refine ⟨?_, (kept marked.draining).trans marked.empty⟩
    rw [frame]
    exact marked.draining

theorem Drained.reset {errorCode finalSize : Nat} {result : Except Error Nat} (drained : recv.Drained)
    (done : recv.reset errorCode finalSize = some (next, result)) : next.Drained := by
  rw [RecvBuf.reset] at done
  split at done
  · cases done
    exact drained
  split at done
  · cases done
    exact drained
  dsimp only at done
  split at done
  · cases done
    exact drained
  obtain ⟨⟨last, output⟩, written, done⟩ := Option.bind_eq_some_iff.mp done
  have cleared : ({ recv with error := some errorCode, off := finalSize, data := .empty } : RecvBuf).Drained :=
    ⟨drained.draining, rfl⟩
  cases output with
  | error error =>
    cases done
    exact cleared.write written
  | ok _ =>
    cases done
    exact cleared.write written

theorem Drained.emit {cap : Nat} {result : Except Error (List UInt8 × Bool)} (drained : recv.Drained)
    (emitted : recv.emit cap = some (next, result)) : next.Drained := by
  rw [RecvBuf.emit, if_pos (by rw [drained.not_ready]; exact Bool.false_ne_true)] at emitted
  cases emitted
  exact drained

theorem shutdown_drained (done : recv.shutdown = (next, .ok ())) : next.Drained := by
  rw [shutdown] at done
  split at done
  · cases done
  · cases done
    exact ⟨rfl, rfl⟩

end RecvBuf

theorem Stream.Change.drained {old new : Stream} {kind : Stream.Kind} (change : old.Change kind new)
    (drained : old.recv.Drained) : new.recv.Drained := by
  cases change with
  | received data recv result written => exact drained.write written
  | reset errorCode finalSize recv result done => exact drained.reset done
  | read cap recv result emitted => exact drained.emit emitted
  | shutRead recv done => exact RecvBuf.shutdown_drained done
  | tuned flowControl => exact ⟨drained.draining, drained.empty⟩
  | same | wrote | appended | raised | stopped | shutWrite | emitted | acked | lost => exact drained

namespace StreamMap

/-- Streams are stored under their identifiers, none of them is collected, and those with something to send may
send. -/
structure Lawful (isServer : Bool) (map : StreamMap) : Prop where
  keyed : ∀ id stream, map.get id = some stream → stream.priorityKey.id = id
  gone : ∀ id ∈ map.collected, map.get id = none
  linked : ∀ key ∈ map.flushable, maySend key.id isServer = true
  signalled : ∀ id, (map.reset.lookup id).isSome = true → maySend id isServer = true

section Lawful

variable {map : StreamMap} {isServer : Bool} {id : Nat} {old new : Stream}

section

variable (lawful : map.Lawful isServer)

include lawful

theorem Lawful.set (found : map.get id = some old)
    (key : new.priorityKey.id = id) : (map.set id new).Lawful isServer where
  keyed other stream known := by
    rw [get, set_put map id new] at known
    split at known
    · rename_i same
      cases known
      rw [same, key]
    · exact lawful.keyed other stream known
  gone other collected := by
    rw [get, set_put map id new, if_neg]
    · exact lawful.gone other collected
    · intro same
      rw [same] at collected
      cases (lawful.gone id collected).symm.trans found
  linked := lawful.linked
  signalled := lawful.signalled

theorem Lawful.link {key : StreamPriorityKey}
    (allowed : maySend key.id isServer = true) : (map.insertFlushable key).Lawful isServer where
  keyed := lawful.keyed
  gone := lawful.gone
  linked other member := by
    rcases StreamQueue.mem_insert.mp member with rfl | before
    · exact allowed
    · exact lawful.linked other before
  signalled := lawful.signalled

theorem Lawful.unlink (key : StreamPriorityKey) : (map.removeFlushable key).Lawful isServer where
  keyed := lawful.keyed
  gone := lawful.gone
  linked other member := lawful.linked other (List.mem_of_mem_erase member)
  signalled := lawful.signalled

end

theorem lawful_maintains (isServer : Bool) :
    Maintains isServer { sends := (maySend · isServer = true) } (Lawful isServer) where
  open_ {map next id localParams peerParams locally stream} lawful _ handed := by
    have opened := getOrCreate_opened handed
    refine ⟨?_, ?_, ?_, ?_⟩
    · intro other known found
      rw [get, opened.put] at found
      split at found
      · rename_i same
        cases found
        rcases opened.origin with before | ⟨_, _, _, _, _, _, _, rfl⟩
        · exact lawful.keyed other _ (same ▸ before)
        · exact same.symm
      · exact lawful.keyed other known found
    · intro other collected
      rw [opened.collected] at collected
      rw [get, opened.put, if_neg]
      · exact lawful.gone other collected
      · rintro rfl
        rcases opened.origin with before | ⟨_, uncollected, _⟩
        · cases (lawful.gone other collected).symm.trans before
        · exact uncollected collected
    · rw [opened.flushable]
      exact lawful.linked
    · rw [opened.reset]
      exact lawful.signalled
  change {map id kind old new} lawful _ found change := by
    refine lawful.set found ?_
    rw [change.key_eq]
    exact lawful.keyed id old found
  prioritize {map id old} urgency incremental lawful found := by
    have changed : (map.set id { old with urgency, incremental, priorityKey := ⟨urgency, incremental, id⟩ }).Lawful
        isServer := lawful.set found rfl
    refine ⟨changed.keyed, changed.gone, ?_, changed.signalled⟩
    intro key member
    have member : key ∈ map.flushable.updatePriority old.priorityKey ⟨urgency, incremental, id⟩ := member
    rw [StreamQueue.updatePriority] at member
    split at member
    · rename_i linked
      rcases List.mem_cons.mp ((StreamQueue.link_perm _ _).mem_iff.mp member) with rfl | before
      · have allowed := lawful.linked _ linked
        rwa [lawful.keyed id old found] at allowed
      · exact lawful.linked key (List.mem_of_mem_erase before)
    · exact lawful.linked key member
  readable _ lawful := ⟨lawful.keyed, lawful.gone, lawful.linked, lawful.signalled⟩
  writable _ lawful := ⟨lawful.keyed, lawful.gone, lawful.linked, lawful.signalled⟩
  almostFull _ lawful := ⟨lawful.keyed, lawful.gone, lawful.linked, lawful.signalled⟩
  blocked _ lawful := ⟨lawful.keyed, lawful.gone, lawful.linked, lawful.signalled⟩
  flush {map id stream} lawful found allowed := by
    refine lawful.link ?_
    rwa [lawful.keyed id stream found]
  reset {map id} errorCode finalSize lawful allowed := by
    refine ⟨lawful.keyed, lawful.gone, lawful.linked, ?_⟩
    intro other signalled
    rw [insertReset, put_insert map.reset id] at signalled
    split at signalled
    · rename_i same
      rw [same]
      exact allowed
    · exact lawful.signalled other signalled
  stopped _ _ lawful := ⟨lawful.keyed, lawful.gone, lawful.linked, lawful.signalled⟩
  collect {map next id stream} lawful _ found collected := by
    rw [collect, found] at collected
    cases collected
    refine ⟨?_, ?_, ?_, lawful.signalled⟩
    · intro other stream known
      rw [get, dropped_erase map.streams id] at known
      split at known
      · cases known
      · exact lawful.keyed other stream known
    · intro other gone
      rw [get, dropped_erase map.streams id]
      split
      · rfl
      · rename_i different
        exact lawful.gone other ((Finset.mem_insert.mp gone).resolve_left different)
    · exact fun key member => lawful.linked key (List.mem_of_mem_erase member)
  peerMax _ _ lawful := ⟨lawful.keyed, lawful.gone, lawful.linked, lawful.signalled⟩

theorem new_lawful (isServer : Bool) (maxStreamsBidi maxStreamsUni maxStreamWindow : Nat) :
    (StreamMap.new maxStreamsBidi maxStreamsUni maxStreamWindow).Lawful isServer where
  keyed id stream found := by cases found
  gone id collected := absurd collected (Finset.notMem_empty id)
  linked key member := absurd member List.not_mem_nil
  signalled id signalled := by cases signalled

theorem lawful_sheds (isServer : Bool) : Sheds (Lawful isServer) where
  reflush {map key stream} lawful member found := by
    refine (lawful.unlink _).link ?_
    rw [lawful.keyed key.id stream found]
    exact lawful.linked key member
  unflush key lawful := lawful.unlink key
  unreset {map} id lawful := by
    refine ⟨lawful.keyed, lawful.gone, lawful.linked, ?_⟩
    intro other signalled
    rw [removeReset, dropped_erase map.reset id] at signalled
    split at signalled
    · cases signalled
    · exact lawful.signalled other signalled
  unstopped _ lawful := ⟨lawful.keyed, lawful.gone, lawful.linked, lawful.signalled⟩
  commit _ _ lawful := ⟨lawful.keyed, lawful.gone, lawful.linked, lawful.signalled⟩

end Lawful

/-- The stream is there, and what arrives on it is dropped. -/
def Draining (id : Nat) (map : StreamMap) : Prop := ∃ stream, map.get id = some stream ∧ stream.recv.Drained

theorem draining_set {map : StreamMap} {id other : Nat} {old new : Stream} (draining : map.Draining id)
    (found : map.get other = some old) (kept : old.recv.Drained → new.recv.Drained) :
    (map.set other new).Draining id := by
  obtain ⟨stream, known, drained⟩ := draining
  by_cases same : id = other
  · subst same
    rw [found] at known
    cases known
    exact ⟨new, get_set .., kept drained⟩
  · refine ⟨stream, ?_, drained⟩
    rw [get, set_put map other new, if_neg same]
    exact known

theorem draining_maintains (isServer : Bool) (id : Nat) : Maintains isServer { may := (· ≠ id) } (Draining id) where
  open_ {map next other localParams peerParams locally stream} draining _ handed := by
    have opened := getOrCreate_opened handed
    obtain ⟨known, found, drained⟩ := draining
    refine ⟨known, ?_, drained⟩
    rw [get, opened.put]
    split
    · rename_i same
      subst same
      rcases opened.origin with before | ⟨absent, _⟩
      · exact before.symm.trans found
      · cases absent.symm.trans found
    · exact found
  change draining _ found change := draining_set draining found change.drained
  prioritize _ _ draining found := draining_set draining found fun drained => drained
  readable _ draining := draining
  writable _ draining := draining
  almostFull _ draining := draining
  blocked _ draining := draining
  flush draining _ _ := draining
  reset _ _ draining _ := draining
  stopped _ _ draining := draining
  collect {map next other stream} draining different found collected := by
    rw [collect, found] at collected
    cases collected
    obtain ⟨known, present, drained⟩ := draining
    refine ⟨known, ?_, drained⟩
    rw [get, dropped_erase map.streams other, if_neg (Ne.symm different)]
    exact present
  peerMax _ _ draining := draining

theorem draining_sheds (id : Nat) : Sheds (Draining id) where
  reflush draining _ _ := draining
  unflush _ draining := draining
  unreset _ draining := draining
  unstopped _ draining := draining
  commit _ _ draining := draining

end StreamMap

namespace Connection

open StreamMap

variable {conn next : Connection} {scope : Scope} {invariant : StreamMap → Prop} {id : Nat}

theorem create_maintains {creation : Creation} {left : Nat} {frame : Option Frame}
    (maintains : Maintains conn.isServer scope invariant) (sheds : Sheds invariant)
    (allowed : ∀ kind id, scope.allows kind id) (holds : invariant conn.streams)
    (created : conn.create left creation = some (next, frame)) : invariant next.streams := by
  cases creation with
  | maxStreamsBidi =>
    obtain ⟨⟨streams, made⟩, sent, same⟩ := Option.map_eq_some_iff.mp created
    cases same
    rcases Transit.sendMaxStreams_spec sent with ⟨rfl, _⟩ | ⟨rfl, _⟩
    · exact holds
    · exact sheds.commit _ _ holds
  | maxStreamsUni =>
    obtain ⟨⟨streams, made⟩, sent, same⟩ := Option.map_eq_some_iff.mp created
    cases same
    rcases Transit.sendMaxStreams_spec sent with ⟨rfl, _⟩ | ⟨rfl, _⟩
    · exact holds
    · exact sheds.commit _ _ holds
  | maxStreamData streamId now rtt minWindow => exact sendMaxStreamData_maintains maintains (allowed _ _) holds created
  | maxData now rtt =>
    rcases sendMaxData_spec created with ⟨rfl, _⟩ | ⟨_, _, ⟨_, rfl⟩ | ⟨_, _, rfl⟩⟩ <;> exact holds
  | stopSending streamId =>
    rcases sendStopSending_spec created with ⟨rfl, _⟩ | ⟨_, _, _, rfl⟩
    · exact holds
    · exact sheds.unstopped streamId holds
  | resetStream streamId =>
    rcases sendResetStream_spec created with ⟨rfl, _⟩ | ⟨_, _, _, _, rfl⟩
    · exact holds
    · exact sheds.unreset streamId holds
  | stream =>
    obtain ⟨⟨sender, header⟩, sending, same⟩ := Option.map_eq_some_iff.mp created
    cases same
    exact sendStream_maintains maintains sheds.toUnlinks (allowed _) holds sending

theorem flushStreams_linked {fuel left : Nat} {streams result : StreamMap} {sent : Option StreamHeader}
    (flushed : flushStreams fuel streams left = some (result, sent)) (may : Nat → Prop)
    (allowed : ∀ key ∈ streams.flushable, may key.id) : ∀ header ∈ sent, may header.streamId := by
  induction fuel generalizing streams with
  | zero =>
    rw [flushStreams] at flushed
    split at flushed
    · cases flushed
      rintro _ ⟨⟩
    · cases flushed
  | succ fuel ih =>
    have skipped : ∀ {key}, flushStreams fuel (streams.removeFlushable key) left = some (result, sent) →
        ∀ header ∈ sent, may header.streamId :=
      fun later => ih later fun other member => allowed other (List.mem_of_mem_erase member)
    rw [flushStreams] at flushed
    split at flushed
    · cases flushed
      rintro _ ⟨⟩
    rename_i key front
    dsimp only at flushed
    split at flushed
    · exact skipped flushed
    split at flushed
    · exact skipped flushed
    obtain ⟨hdrLen, _, flushed⟩ := Option.bind_eq_some_iff.mp flushed
    split at flushed
    · exact skipped flushed
    obtain ⟨⟨send, out, fin⟩, _, flushed⟩ := Option.bind_eq_some_iff.mp flushed
    cases flushed
    intro header made
    cases made
    exact allowed key (List.mem_of_head? front)

theorem create_concerns {creation : Creation} {left : Nat} {frame : Option Frame}
    (lawful : conn.streams.Lawful conn.isServer) (created : conn.create left creation = some (next, frame)) :
    ∀ id, frame.bind Frame.concerns = some id → maySend id conn.isServer = true := by
  cases creation with
  | maxStreamsBidi =>
    obtain ⟨⟨streams, made⟩, sent, same⟩ := Option.map_eq_some_iff.mp created
    cases same
    rcases Transit.sendMaxStreams_spec sent with ⟨_, rfl⟩ | ⟨_, rfl, _⟩
    · rintro _ ⟨⟩
    · rintro _ ⟨⟩
  | maxStreamsUni =>
    obtain ⟨⟨streams, made⟩, sent, same⟩ := Option.map_eq_some_iff.mp created
    cases same
    rcases Transit.sendMaxStreams_spec sent with ⟨_, rfl⟩ | ⟨_, rfl, _⟩
    · rintro _ ⟨⟩
    · rintro _ ⟨⟩
  | maxStreamData streamId now rtt minWindow =>
    rcases (sendMaxStreamData_spec created).2.1 with rfl | ⟨_, rfl⟩
    · rintro _ ⟨⟩
    · rintro _ ⟨⟩
  | maxData now rtt =>
    rcases sendMaxData_spec created with ⟨_, rfl⟩ | ⟨_, _, ⟨rfl, _⟩ | ⟨_, rfl, _⟩⟩
    · rintro _ ⟨⟩
    · rintro _ ⟨⟩
    · rintro _ ⟨⟩
  | stopSending streamId =>
    rcases sendStopSending_spec created with ⟨_, rfl⟩ | ⟨_, _, rfl, _⟩
    · rintro _ ⟨⟩
    · rintro _ ⟨⟩
  | resetStream streamId =>
    rcases sendResetStream_spec created with ⟨_, rfl⟩ | ⟨_, _, signalled, rfl, _⟩
    · rintro _ ⟨⟩
    · intro id concerned
      cases concerned
      exact lawful.signalled streamId (by rw [signalled]; rfl)
  | stream =>
    obtain ⟨⟨sender, header⟩, sending, same⟩ := Option.map_eq_some_iff.mp created
    cases same
    rw [sendStream] at sending
    split at sending
    · obtain ⟨⟨streams, made⟩, flushed, sending⟩ := Option.bind_eq_some_iff.mp sending
      cases sending
      intro id concerned
      obtain ⟨sent, carried, concerned⟩ := Option.bind_eq_some_iff.mp concerned
      obtain ⟨header, known, rfl⟩ := Option.map_eq_some_iff.mp carried
      cases concerned
      exact flushStreams_linked flushed (maySend · conn.isServer = true) lawful.linked header known
    · cases sending
      rintro _ ⟨⟩

section Role

theorem step_isServer {call : Call} (stepped : conn.step call = some next) : next.isServer = conn.isServer := by
  cases receives : call.receives with
  | false => exact (step_steady stepped receives).2.2.2
  | true =>
    cases call with
    | stream streamId data =>
      rcases processStream_spec (processed_spec stepped) with rfl | ⟨_, _, _, _, _, _, _, _, frame⟩
      · rfl
      · rw [frame]
    | resetStream streamId errorCode finalSize =>
      rcases processResetStream_spec (processed_spec stepped) with rfl | ⟨_, _, _, _, _, _, _, _, frame⟩
      · rfl
      · rw [frame]
    | streamRecv streamId cap =>
      obtain ⟨result, received⟩ := called_spec stepped
      rcases streamRecv_spec received with rfl | ⟨_, _, _, _, _, _, _, _, frame⟩
      · rfl
      · rw [frame]
    | streamShutdown streamId direction err cwinAvailable =>
      obtain ⟨result, shut⟩ := called_spec stepped
      cases direction with
      | write => contradiction
      | read =>
        rcases streamShutdown_read_spec shut with rfl | ⟨_, _, _, _, _, _, frame⟩
        · rfl
        · rw [frame]
    | stopSending | maxData | maxStreamData | peerTransportParams | streamSend | streamSendZc | streamPriority
    | ackedStream | ackedResetStream | lostStream | sendStream | updateTxCap | updateFlowControl
    | updateStreamFlowControl | updateMaxStreams => contradiction

theorem create_isServer {creation : Creation} {left : Nat} {frame : Option Frame}
    (created : conn.create left creation = some (next, frame)) : next.isServer = conn.isServer := by
  cases creation with
  | maxStreamsBidi =>
    obtain ⟨⟨streams, made⟩, _, same⟩ := Option.map_eq_some_iff.mp created
    cases same
    rfl
  | maxStreamsUni =>
    obtain ⟨⟨streams, made⟩, _, same⟩ := Option.map_eq_some_iff.mp created
    cases same
    rfl
  | maxStreamData streamId now rtt minWindow => rw [(sendMaxStreamData_spec created).2.2]
  | maxData now rtt =>
    rcases sendMaxData_spec created with ⟨rfl, _⟩ | ⟨_, _, ⟨_, rfl⟩ | ⟨_, _, rfl⟩⟩ <;> rfl
  | stopSending streamId => rcases sendStopSending_spec created with ⟨rfl, _⟩ | ⟨_, _, _, rfl⟩ <;> rfl
  | resetStream streamId => rcases sendResetStream_spec created with ⟨rfl, _⟩ | ⟨_, _, _, _, rfl⟩ <;> rfl
  | stream =>
    obtain ⟨⟨sender, header⟩, sending, same⟩ := Option.map_eq_some_iff.mp created
    cases same
    rw [(sendStream_carries sending).1]

theorem ackedFrame_isServer {frame : Frame} (acked : conn.ackedFrame frame = some next) :
    next.isServer = conn.isServer := by
  rw [ackedFrame.eq_def] at acked
  split at acked
  · rcases ackedStream_spec acked with ⟨_, rfl⟩ | ⟨_, _, _, _, _, frame⟩
    · rfl
    · rw [frame]
  · rcases ackedResetStream_spec acked with rfl | ⟨_, _, _, frame⟩
    · rfl
    · rw [frame]
  · cases acked
    rfl

theorem lostFrame_isServer {frame : Frame} (lost : conn.lostFrame frame = some next) :
    next.isServer = conn.isServer := by
  rw [lostFrame.eq_def] at lost
  split at lost
  · rcases lostStream_spec lost with rfl | ⟨_, _, _, _, _, _, frame⟩
    · rfl
    · rw [frame]
  · split at lost <;> cases lost <;> rfl
  · split at lost <;> cases lost <;> rfl
  · cases lost
    rfl
  · cases lost
    rfl

end Role

namespace Transit

variable {transit after : Transit} {event : Event}

theorem step_isServer (stepped : transit.step event = some after) : after.conn.isServer = transit.conn.isServer := by
  cases steps_of_step stepped with
  | call direct moved => exact Connection.step_isServer moved
  | maxStreams => rfl
  | create created => exact create_isServer created
  | acked resolved acked => exact ackedFrame_isServer acked
  | lost resolved lost => exact lostFrame_isServer lost

theorem run_isServer {events : List Event} (reached : machine.run transit events = some after) :
    after.conn.isServer = transit.conn.isServer := by
  induction events generalizing transit with
  | nil =>
    cases reached
    rfl
  | cons event events ih =>
    obtain ⟨middle, stepped, reached⟩ := Option.bind_eq_some_iff.mp reached
    exact (ih reached).trans (step_isServer stepped)

theorem step_maintains (maintains : Maintains transit.conn.isServer scope invariant) (sheds : Sheds invariant)
    (covers : ∀ call, event = .call call → Covers scope transit.conn call) (allowed : ∀ kind id, scope.allows kind id)
    (frames : ∀ entry ∈ transit.sent, ∀ id, entry.1.concerns = some id → scope.sends id ∧ scope.may id)
    (holds : invariant transit.conn.streams) (stepped : transit.step event = some after) :
    invariant after.conn.streams := by
  cases steps_of_step stepped with
  | call direct moved => exact Connection.step_maintains maintains (covers _ rfl) holds direct moved
  | maxStreams limited =>
    subst limited
    exact ite_of (maintains.peerMax _ _ holds) (maintains.peerMax _ _ holds)
  | create created => exact create_maintains maintains sheds allowed holds created
  | acked resolved acked =>
    have concerned := frames _ (Ledger.mem_of_resolve resolved)
    exact ackedFrame_maintains maintains holds
      (fun id concerns => ⟨(concerned id concerns).2, allowed _ _⟩) acked
  | lost resolved lost =>
    have concerned := frames _ (Ledger.mem_of_resolve resolved)
    exact lostFrame_maintains maintains holds
      (fun id concerns => ⟨(concerned id concerns).1, allowed _ _⟩) lost

/-- The streams are lawful, and frames in flight are about streams that may send. -/
structure Lawful (transit : Transit) : Prop where
  streams : transit.conn.streams.Lawful transit.conn.isServer
  sent : ∀ entry ∈ transit.sent, ∀ id, entry.1.concerns = some id → maySend id transit.conn.isServer = true

theorem step_sent (lawful : transit.Lawful) (stepped : transit.step event = some after) :
    ∀ entry ∈ after.sent, ∀ id, entry.1.concerns = some id → maySend id transit.conn.isServer = true := by
  cases steps_of_step stepped with
  | call => exact lawful.sent
  | maxStreams => exact lawful.sent
  | @create _ _ _ frame created =>
    have concerned := create_concerns lawful.streams created
    cases frame with
    | none => exact lawful.sent
    | some frame =>
      intro entry member
      rcases List.mem_append.mp member with before | new
      · exact lawful.sent entry before
      · cases List.mem_singleton.mp new
        exact concerned
  | acked resolved | lost resolved =>
    intro entry member
    obtain ⟨earlier, known, same⟩ := Ledger.item_mem_of_resolve resolved member
    rw [← same]
    exact lawful.sent earlier known

theorem Lawful.step (lawful : transit.Lawful) (stepped : transit.step event = some after) : after.Lawful := by
  constructor
  · rw [step_isServer stepped]
    exact step_maintains (lawful_maintains _) (lawful_sheds _)
      (fun _ _ => ⟨fun _ allowed => allowed, trivial, fun _ _ => trivial, fun _ _ _ => trivial⟩)
      (fun _ _ => trivial) (fun entry member id concerns => ⟨lawful.sent entry member id concerns, trivial⟩)
      lawful.streams stepped
  · rw [step_isServer stepped]
    exact step_sent lawful stepped

theorem start_lawful (config : Config) (scid : List UInt8) (localAddr peerAddr : SocketAddr)
    (addressVerified isServer : Bool) : (start config scid localAddr peerAddr addressVerified isServer).Lawful where
  streams := new_lawful _ _ _ _
  sent _ member := absurd member List.not_mem_nil

theorem streamRecv_draining {cap : Nat} {result : Except Error (List UInt8 × Bool)}
    (draining : conn.streams.Draining id) (received : conn.streamRecv id cap = some (next, result)) : next = conn := by
  obtain ⟨stream, found, drained⟩ := draining
  rw [streamRecv] at received
  split at received
  · cases received
    rfl
  rw [found] at received
  dsimp only at received
  rw [Stream.isReadable, drained.not_ready] at received
  cases received
  rfl

/-- The stream only receives, and what arrives on it is dropped. -/
structure Drains (id : Nat) (transit : Transit) : Prop where
  lawful : transit.Lawful
  receives : maySend id transit.conn.isServer = false
  draining : transit.conn.streams.Draining id

theorem Drains.step (drains : transit.Drains id) (stepped : transit.step event = some after) : after.Drains id := by
  obtain ⟨lawful, receives, draining⟩ := drains
  refine ⟨lawful.step stepped, by rwa [step_isServer stepped], ?_⟩
  have frames : ∀ entry ∈ transit.sent, ∀ other, entry.1.concerns = some other → True ∧ other ≠ id := by
    intro entry member other concerns
    refine ⟨trivial, ?_⟩
    rintro rfl
    rw [lawful.sent entry member other concerns] at receives
    cases receives
  by_cases reads : ∃ cap, event = .call (.streamRecv id cap)
  · obtain ⟨cap, rfl⟩ := reads
    obtain ⟨conn, moved, rfl⟩ := Option.map_eq_some_iff.mp stepped
    obtain ⟨result, received⟩ := called_spec moved
    cases streamRecv_draining draining received
    exact draining
  · refine step_maintains (draining_maintains _ id) (draining_sheds id) ?_ (fun _ _ => trivial) frames draining
      stepped
    rintro call rfl
    refine ⟨fun _ _ => trivial, trivial, ?_, fun _ _ _ => trivial⟩
    rintro other collects rfl
    cases call with
    | streamRecv streamId cap =>
      cases collects
      exact reads ⟨cap, rfl⟩
    | ackedStream | ackedResetStream => cases stepped
    | _ => cases collects

theorem streamShutdown_draining {err cwinAvailable : Nat}
    (shut : conn.streamShutdown id .read err cwinAvailable = some (next, .ok ())) : next.streams.Draining id := by
  rw [streamShutdown] at shut
  dsimp only at shut
  split at shut
  · cases shut
  split at shut
  · cases shut
  rename_i old found
  split at shut
  · cases shut
  rename_i recv done
  cases shut
  have drained : (conn.streams.set id { old with recv }).Draining id := ⟨_, get_set .., RecvBuf.shutdown_drained done⟩
  dsimp only
  split
  · exact drained
  · exact drained

/-- A stream of the peer's that it alone sends on is never collected once the application
has shut it down for reading, whatever arrives and in whatever order. -/
theorem drained_stream_never_collected {config : Config} {scid : List UInt8} {localAddr peerAddr : SocketAddr}
    {addressVerified isServer : Bool} {earlier later : List Event} {err cwinAvailable : Nat}
    (uni : isBidi id = false) (remote : isLocal id isServer = false)
    (started : machine.run (start config scid localAddr peerAddr addressVerified isServer) earlier = some transit)
    (shut : transit.conn.streamShutdown id .read err cwinAvailable = some (conn, .ok ()))
    (reached : machine.run { transit with conn } later = some after) :
    id ∉ after.conn.streams.collected ∧ (after.conn.streams.get id).isSome = true := by
  have receives : maySend id isServer = false := by rw [maySend, uni, remote]; rfl
  have lawful : transit.Lawful := machine.run_keeps (fun _ _ _ lawful stepped => lawful.step stepped)
    (start_lawful config scid localAddr peerAddr addressVerified isServer) started
  have role : transit.conn.isServer = isServer := run_isServer started
  have shutStep : transit.step (.call (.streamShutdown id .read err cwinAvailable)) = some { transit with conn } := by
    show (transit.conn.step _).map _ = _
    rw [Connection.step, shut]
    rfl
  have drains : Drains id { transit with conn } := by
    refine ⟨lawful.step shutStep, ?_, streamShutdown_draining shut⟩
    rw [step_isServer shutStep, role]
    exact receives
  obtain ⟨lawful, _, stream, found, _⟩ :=
    machine.run_keeps (fun _ _ _ drains stepped => drains.step stepped) drains reached
  refine ⟨fun collected => ?_, by rw [found]; rfl⟩
  cases (lawful.streams.gone id collected).symm.trans found

theorem drained_stream_never_collected_reordered :
    ∃ transit conn after, machine.run (start History.smallConfig [1] ⟨[1], 1⟩ ⟨[2], 2⟩ false true)
        [.call (.stream 2 (.fromBytes [2] 1 true))] = some transit ∧
      transit.conn.streamShutdown 2 .read 7 20 = some (conn, .ok ()) ∧
      machine.run { transit with conn } [.call (.stream 2 (.fromBytes [1] 0 false)), .call (.streamRecv 2 10)] =
        some after ∧ 2 ∉ after.conn.streams.collected ∧ (after.conn.streams.get 2).isSome = true := by
  have computed : ∃ transit ∈ machine.run (start History.smallConfig [1] ⟨[1], 1⟩ ⟨[2], 2⟩ false true)
      [.call (.stream 2 (.fromBytes [2] 1 true))], ∃ shut ∈ transit.conn.streamShutdown 2 .read 7 20,
        shut.2.toOption = some () ∧ ∃ after ∈ machine.run { transit with conn := shut.1 }
          [.call (.stream 2 (.fromBytes [1] 0 false)), .call (.streamRecv 2 10)], True := by
    decide +kernel
  obtain ⟨transit, started, ⟨conn, result⟩, shut, done, after, reached, _⟩ := computed
  cases result with
  | error error => cases done
  | ok _ =>
    exact ⟨transit, conn, after, started, shut, reached,
      drained_stream_never_collected (by decide) (by decide) started shut reached⟩

/-- A stream is kept although all of it arrived before it was shut down, and one whose end
arrives afterwards does not even count as finished. -/
theorem drained_stream_leaks : ∃ before after, machine.run (start History.smallConfig [1] ⟨[1], 1⟩ ⟨[2], 2⟩ false true)
        [.call (.stream 2 (.fromBytes [1] 0 true)), .call (.streamShutdown 2 .read 7 20),
          .call (.streamRecv 2 10)] = some before ∧
      (before.conn.streams.get 2).map (·.recv.isFin) = some true ∧ 2 ∉ before.conn.streams.collected ∧
      machine.run (start History.smallConfig [1] ⟨[1], 1⟩ ⟨[2], 2⟩ false true)
        [.call (.stream 2 (.fromBytes [1] 0 false)), .call (.streamShutdown 2 .read 7 20),
          .create (.stopSending 2) 100, .acked 0, .call (.stream 2 (.fromBytes [2] 1 true)),
          .call (.streamRecv 2 10)] = some after ∧
      (after.conn.streams.get 2).map (·.recv.isFin) = some false ∧ 2 ∉ after.conn.streams.collected :=
  exists_reached_next_of (fun _ => machine.run (start History.smallConfig [1] ⟨[1], 1⟩ ⟨[2], 2⟩ false true) _)
    (fun before after => ((before.conn.streams.get 2).map (·.recv.isFin) = some true ∧
        2 ∉ before.conn.streams.collected) ∧
      (after.conn.streams.get 2).map (·.recv.isFin) = some false ∧ 2 ∉ after.conn.streams.collected)
    (by decide +kernel) fun _ _ _ late ⟨⟨finished, kept⟩, unfinished⟩ => ⟨finished, kept, late, unfinished⟩

end Transit

end Connection

end Quiche
