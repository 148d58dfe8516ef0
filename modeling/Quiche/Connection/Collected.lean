import Quiche.Connection.Maintain
import Quiche.Connection.Steady

namespace Quiche

open Data

namespace StreamMap

variable (map : StreamMap) (key : StreamPriorityKey) (id : Nat)

@[simp] theorem insertReadable_collected : (map.insertReadable key).collected = map.collected := rfl

@[simp] theorem removeReadable_collected : (map.removeReadable key).collected = map.collected := rfl

@[simp] theorem insertAlmostFull_collected : (map.insertAlmostFull id).collected = map.collected := rfl

@[simp] theorem set_collected (stream : Stream) : (map.set id stream).collected = map.collected := rfl

variable {map} {id}

/-- Only `collect` adds to the streams that were collected. -/
theorem collected_maintains (isServer : Bool) (collected : Finset Nat) :
    Maintains isServer { may := fun _ => False } (·.collected = collected) where
  open_ same _ handed := (getOrCreate_opened handed).collected.trans same
  change same _ _ _ := same
  prioritize _ _ same _ := same
  readable _ same := same
  writable _ same := same
  almostFull _ same := same
  blocked _ same := same
  flush same _ _ := same
  reset _ _ same _ := same
  stopped _ _ same := same
  collect _ may _ _ := may.elim
  peerMax _ _ same := same

theorem collected_unlinks (collected : Finset Nat) : Unlinks (·.collected = collected) where
  reflush same _ _ := same
  unflush _ same := same

/-- The stream is there, or it is collected. -/
def Collects (map next : StreamMap) (id : Nat) : Prop := next.collected = map.collected ∧ (next.get id).isSome = true ∨
    next.collected = insert id map.collected ∧ next.get id = none

theorem collectIf_collects {isLocal collects : Bool} {next : StreamMap} {stream : Stream}
    (found : map.get id = some stream) (collected : map.collectIf id isLocal collects = some next) :
    Collects map next id := by
  rw [collectIf] at collected
  split at collected
  · obtain ⟨stream, _, collected⟩ := Option.bind_eq_some_iff.mp collected
    cases collected
    exact .inr ⟨rfl, AList.lookup_erase id map.streams⟩
  · cases collected
    exact .inl ⟨rfl, by rw [found]; rfl⟩

end StreamMap

namespace Connection

variable {conn next : Connection} {call : Call}

theorem addConsumed_streams {count : Nat} (added : conn.addConsumed count = some next) :
    next.streams = conn.streams := by
  rw [(addConsumed_spec added).2]

theorem step_collects (stepped : conn.step call = some next) :
    next.streams.collected = conn.streams.collected ∧ (call.collects = none ∨ next = conn) ∨
      ∃ id, call.collects = some id ∧ StreamMap.Collects conn.streams next.streams id := by
  have maintains := StreamMap.collected_maintains conn.isServer conn.streams.collected
  have kept : call.collects = none → call.direct = true → next.streams.collected = conn.streams.collected := by
    intro absent direct
    refine step_maintains maintains ⟨fun _ _ => trivial, trivial, ?_, fun _ _ _ => trivial⟩ rfl direct stepped
    intro id collects
    rw [absent] at collects
    cases collects
  cases call with
  | streamRecv streamId cap =>
    obtain ⟨result, received⟩ := called_spec stepped
    rw [streamRecv] at received
    split at received
    · cases received
      exact .inl ⟨rfl, .inr rfl⟩
    split at received
    · cases received
      exact .inl ⟨rfl, .inr rfl⟩
    split at received
    · cases received
      exact .inl ⟨rfl, .inr rfl⟩
    obtain ⟨⟨recv, emitted⟩, _, received⟩ := Option.bind_eq_some_iff.mp received
    right
    refine ⟨streamId, rfl, ?_⟩
    cases emitted with
    | error error =>
      obtain ⟨streams, collected, received⟩ := Option.bind_eq_some_iff.mp received
      cases received
      have collects := StreamMap.collectIf_collects (StreamMap.get_set ..) collected
      exact collects
    | ok output =>
      obtain ⟨out, fin⟩ := output
      obtain ⟨almostFull, _, received⟩ := Option.bind_eq_some_iff.mp received
      obtain ⟨streams, collected, received⟩ := Option.bind_eq_some_iff.mp received
      obtain ⟨credited, added, received⟩ := Option.bind_eq_some_iff.mp received
      cases received
      have collects := StreamMap.collectIf_collects
        (by simpa [StreamMap.get, apply_ite StreamMap.streams] using StreamMap.get_set conn.streams streamId _)
        collected
      rw [addConsumed_streams added]
      simpa [StreamMap.Collects, StreamMap.get, apply_ite StreamMap.collected,
        apply_ite StreamMap.streams] using collects
  | ackedStream streamId offset length =>
    change conn.ackedStream streamId offset length = some next at stepped
    rw [ackedStream] at stepped
    split at stepped
    · cases stepped
      exact .inl ⟨rfl, .inr rfl⟩
    obtain ⟨send, _, stepped⟩ := Option.bind_eq_some_iff.mp stepped
    obtain ⟨streams, collected, stepped⟩ := Option.bind_eq_some_iff.mp stepped
    cases stepped
    have collects := StreamMap.collectIf_collects (StreamMap.get_set ..) collected
    exact .inr ⟨streamId, rfl, collects⟩
  | ackedResetStream streamId =>
    change conn.ackedResetStream streamId = some next at stepped
    rw [ackedResetStream] at stepped
    split at stepped
    · cases stepped
      exact .inl ⟨rfl, .inr rfl⟩
    rename_i found
    obtain ⟨streams, collected, stepped⟩ := Option.bind_eq_some_iff.mp stepped
    cases stepped
    have collects := StreamMap.collectIf_collects found collected
    exact .inr ⟨streamId, rfl, collects⟩
  | lostStream lost => exact .inl ⟨lostStream_maintains maintains trivial rfl trivial stepped, .inl rfl⟩
  | sendStream room =>
    obtain ⟨⟨sender, sent⟩, sending, rfl⟩ := Option.map_eq_some_iff.mp stepped
    have sent := sendStream_maintains maintains (StreamMap.collected_unlinks _) (fun _ => trivial) rfl sending
    exact .inl ⟨sent, .inl rfl⟩
  | updateFlowControl control =>
    cases stepped
    exact .inl ⟨rfl, .inl rfl⟩
  | updateStreamFlowControl streamId control =>
    cases stepped
    refine .inl ⟨?_, .inl rfl⟩
    rw [updateStreamFlowControl]
    split <;> rfl
  | updateMaxStreams peerBidi peerUni localBidi localUni =>
    cases stepped
    exact .inl ⟨rfl, .inl rfl⟩
  | stream | resetStream | stopSending | maxData | maxStreamData | peerTransportParams | streamSend | streamSendZc
  | streamPriority | streamShutdown | updateTxCap => exact .inl ⟨kept rfl rfl, .inl rfl⟩

end Connection

end Quiche
