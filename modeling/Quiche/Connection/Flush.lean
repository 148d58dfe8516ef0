import Quiche.Connection.Send

namespace Quiche

open Data

namespace StreamQueue

variable {queue : StreamQueue} {key other : StreamPriorityKey}

theorem link_perm (queue : StreamQueue) (key : StreamPriorityKey) : (queue.link key).Perm (key :: queue) := by
  have moved : (queue.link key).Perm
      (key :: (queue.takeWhile (key.cmp · != .lt) ++ queue.dropWhile (key.cmp · != .lt))) := List.perm_middle
  rwa [List.takeWhile_append_dropWhile] at moved

theorem mem_insert : other ∈ queue.insert key ↔ other = key ∨ other ∈ queue := by
  rw [StreamQueue.insert]
  split
  · rename_i linked
    constructor
    · exact .inr
    · intro either
      rcases either with rfl | member
      · exact linked
      · exact member
  · rw [(link_perm queue key).mem_iff, List.mem_cons]

theorem nodup_insert (nodup : queue.Nodup) : (queue.insert key).Nodup := by
  rw [StreamQueue.insert]
  split
  · exact nodup
  · rename_i absent
    exact (link_perm queue key).nodup_iff.mpr (List.nodup_cons.mpr ⟨absent, nodup⟩)

theorem mem_remove (nodup : queue.Nodup) : other ∈ queue.remove key ↔ other ≠ key ∧ other ∈ queue := nodup.mem_erase_iff

theorem nodup_remove (nodup : queue.Nodup) : (queue.remove key).Nodup := nodup.erase key

end StreamQueue

namespace StreamMap

variable {map next : StreamMap} {id : Nat} {old new : Stream}

/-- The queue of flushable streams has each of them that is to be flushed, once and under its own key. -/
structure Queued (map : StreamMap) : Prop where
  nodup : map.flushable.Nodup
  owned : ∀ key ∈ map.flushable, ∃ stream, map.get key.id = some stream ∧ stream.priorityKey = key
  keyed : ∀ id stream, map.get id = some stream → stream.priorityKey.id = id
  waiting : ∀ id stream, map.get id = some stream → stream.send.isStopped = false →
    stream.isFlushable = true → stream.priorityKey ∈ map.flushable

theorem Queued.congr (queued : map.Queued) (streams : next.streams = map.streams)
    (nodup : next.flushable.Nodup) (members : ∀ key, key ∈ next.flushable ↔ key ∈ map.flushable) : next.Queued := by
  have same : ∀ id, next.get id = map.get id := fun id => by rw [get, get, streams]
  refine ⟨nodup, ?_, ?_, ?_⟩
  · intro key member
    rw [same]
    exact queued.owned key ((members key).mp member)
  · intro id stream found
    exact queued.keyed id stream (same id ▸ found)
  · intro id stream found running flushes
    exact (members _).mpr (queued.waiting id stream (same id ▸ found) running flushes)

theorem Queued.of_eq (queued : map.Queued) (streams : next.streams = map.streams)
    (flushable : next.flushable = map.flushable) : next.Queued :=
  queued.congr streams (flushable ▸ queued.nodup) fun key => by rw [flushable]

variable {key : StreamPriorityKey}

theorem Queued.key_eq (queued : map.Queued) (member : key ∈ map.flushable)
    (found : map.get key.id = some old) : old.priorityKey = key := by
  obtain ⟨stream, present, same⟩ := queued.owned key member
  cases present.symm.trans found
  exact same

/-- `old` is what a call finds, or makes, of the stream. -/
def Known (map : StreamMap) (id : Nat) (old : Stream) : Prop :=
  map.get id = some old ∨ map.get id = none ∧ old.priorityKey.id = id ∧ old.isFlushable = false

section

variable (known : map.Known id old) (queued : map.Queued)

include known queued

theorem Known.key_eq (member : key ∈ map.flushable) (here : key.id = id) : old.priorityKey = key := by
  rcases known with found | ⟨absent, _, _⟩
  · exact queued.key_eq member (here ▸ found)
  · obtain ⟨stream, present, _⟩ := queued.owned key member
    rw [here, absent] at present
    cases present

theorem Known.id_eq : old.priorityKey.id = id := by
  rcases known with found | ⟨_, same, _⟩
  · exact queued.keyed id old found
  · exact same

theorem Known.waiting (running : old.send.isStopped = false)
    (flushable : old.isFlushable = true) : old.priorityKey ∈ map.flushable := by
  rcases known with found | ⟨_, _, nothing⟩
  · exact queued.waiting id old found running flushable
  · rw [nothing] at flushable
    cases flushable

end

section

variable (queued : map.Queued)

include queued

theorem Queued.put (known : map.Known id old) (put : Put map.streams id new next.streams)
    (key : new.priorityKey = old.priorityKey)
    (flushable : next.flushable = map.flushable ∨ next.flushable = map.flushable.insert old.priorityKey)
    (waits : new.send.isStopped = false → new.isFlushable = true → old.priorityKey ∈ next.flushable) : next.Queued := by
  have kept : ∀ other ∈ map.flushable, other ∈ next.flushable := by
    intro other member
    rcases flushable with same | inserted
    · rw [same]
      exact member
    · rw [inserted]
      exact StreamQueue.mem_insert.mpr (.inr member)
  have here : next.get id = some new := by rw [get, put, if_pos rfl]
  have elsewhere : ∀ other, other ≠ id → next.get other = map.get other := by
    intro other different
    rw [get, put, if_neg different, get]
  constructor
  · rcases flushable with same | inserted
    · rw [same]
      exact queued.nodup
    · rw [inserted]
      exact StreamQueue.nodup_insert queued.nodup
  · intro other member
    have earlier : other = old.priorityKey ∨ other ∈ map.flushable := by
      rcases flushable with same | inserted
      · exact .inr (same ▸ member)
      · exact StreamQueue.mem_insert.mp (inserted ▸ member)
    by_cases place : other.id = id
    · refine ⟨new, place ▸ here, ?_⟩
      rcases earlier with rfl | before
      · exact key
      · exact key.trans (known.key_eq queued before place)
    · rcases earlier with rfl | before
      · exact absurd (known.id_eq queued) place
      · rw [elsewhere other.id place]
        exact queued.owned other before
  · intro other stream found
    by_cases place : other = id
    · subst place
      cases here.symm.trans found
      rw [key]
      exact known.id_eq queued
    · exact queued.keyed other stream (elsewhere other place ▸ found)
  · intro other stream found running flushes
    by_cases place : other = id
    · subst place
      cases here.symm.trans found
      rw [key]
      exact waits running flushes
    · exact kept _ (queued.waiting other stream (elsewhere other place ▸ found) running flushes)

theorem Queued.remove
    (idle : ∀ stream, map.get key.id = some stream → stream.send.isStopped = false →
      stream.isFlushable = false) : (map.removeFlushable key).Queued := by
  constructor
  · exact StreamQueue.nodup_remove queued.nodup
  · intro other member
    exact queued.owned other ((StreamQueue.mem_remove queued.nodup).mp member).2
  · exact queued.keyed
  · intro id stream found running flushes
    have before := queued.waiting id stream found running flushes
    refine (StreamQueue.mem_remove queued.nodup).mpr ⟨?_, before⟩
    intro same
    have place : key.id = id := by rw [← same, queued.keyed id stream found]
    have nothing := idle stream (place ▸ found) running
    rw [flushes] at nothing
    cases nothing

theorem Queued.requeue (member : key ∈ map.flushable) :
    ((map.removeFlushable key).insertFlushable key).Queued := by
  refine queued.congr rfl (StreamQueue.nodup_insert (StreamQueue.nodup_remove queued.nodup)) fun other => ?_
  rw [insertFlushable_flushable, removeFlushable_flushable, StreamQueue.mem_insert,
    StreamQueue.mem_remove queued.nodup]
  constructor
  · intro either
    rcases either with rfl | both
    · exact member
    · exact both.2
  · intro present
    by_cases same : other = key
    · exact .inl same
    · exact .inr ⟨same, present⟩

theorem Queued.drop (found : map.get id = some old)
    (dropped : Dropped map.streams id next.streams)
    (flushable : next.flushable = map.flushable.remove old.priorityKey) : next.Queued := by
  have elsewhere : ∀ other, other ≠ id → next.get other = map.get other := by
    intro other different
    rw [get, dropped, if_neg different, get]
  have gone : next.get id = none := by rw [get, dropped, if_pos rfl]
  have known : ∀ {other stream}, next.get other = some stream → other ≠ id ∧ map.get other = some stream := by
    intro other stream present
    have different : other ≠ id := by
      intro same
      rw [same, gone] at present
      cases present
    exact ⟨different, elsewhere other different ▸ present⟩
  constructor
  · rw [flushable]
    exact StreamQueue.nodup_remove queued.nodup
  · intro key member
    rw [flushable] at member
    obtain ⟨different, before⟩ := (StreamQueue.mem_remove queued.nodup).mp member
    have place : key.id ≠ id := by
      intro same
      exact different (queued.key_eq before (same ▸ found)).symm
    rw [elsewhere key.id place]
    exact queued.owned key before
  · intro other stream present
    exact queued.keyed other stream (known present).2
  · intro other stream present running flushes
    obtain ⟨different, before⟩ := known present
    rw [flushable]
    refine (StreamQueue.mem_remove queued.nodup).mpr ⟨?_, queued.waiting other stream before running flushes⟩
    intro same
    apply different
    rw [← queued.keyed other stream before, same, queued.keyed id old found]

theorem Queued.updatePriority (known : map.Known id old)
    (put : Put map.streams id new next.streams) (send : new.send = old.send) (here : new.priorityKey.id = id)
    (flushable : next.flushable = map.flushable.updatePriority old.priorityKey new.priorityKey) : next.Queued := by
  have current : next.get id = some new := by rw [get, put, if_pos rfl]
  have elsewhere : ∀ other, other ≠ id → next.get other = map.get other := by
    intro other different
    rw [get, put, if_neg different, get]
  have others : ∀ key ∈ map.flushable, key ≠ old.priorityKey → key.id ≠ id := by
    intro key member different same
    exact different (known.key_eq queued member same).symm
  have absent : new.priorityKey ∉ map.flushable.remove old.priorityKey := by
    intro member
    obtain ⟨different, before⟩ := (StreamQueue.mem_remove queued.nodup).mp member
    exact others _ before different here
  have members : ∀ key, key ∈ next.flushable ↔ old.priorityKey ∈ map.flushable ∧ key = new.priorityKey ∨
        key ≠ old.priorityKey ∧ key ∈ map.flushable := by
    intro key
    rw [flushable, StreamQueue.updatePriority]
    split
    · rename_i linked
      rw [(StreamQueue.link_perm _ _).mem_iff, List.mem_cons, StreamQueue.mem_remove queued.nodup]
      simp [linked]
    · rename_i unlinked
      constructor
      · intro member
        exact .inr ⟨fun same => unlinked (same ▸ member), member⟩
      · intro either
        rcases either with linked | both
        · exact absurd linked.1 unlinked
        · exact both.2
  constructor
  · rw [flushable, StreamQueue.updatePriority]
    split
    · exact (StreamQueue.link_perm _ _).nodup_iff.mpr
        (List.nodup_cons.mpr ⟨absent, StreamQueue.nodup_remove queued.nodup⟩)
    · exact queued.nodup
  · intro key member
    rcases (members key).mp member with ⟨_, rfl⟩ | ⟨different, before⟩
    · exact ⟨new, here ▸ current, rfl⟩
    · rw [elsewhere key.id (others key before different)]
      exact queued.owned key before
  · intro other stream found
    by_cases place : other = id
    · subst place
      cases current.symm.trans found
      exact here
    · exact queued.keyed other stream (elsewhere other place ▸ found)
  · intro other stream found running flushes
    by_cases place : other = id
    · subst place
      cases current.symm.trans found
      rw [send] at running
      rw [Stream.isFlushable, send] at flushes
      exact (members _).mpr (.inl ⟨known.waiting queued running flushes, rfl⟩)
    · have before := elsewhere other place ▸ found
      refine (members _).mpr (.inr ⟨fun same => place ?_, queued.waiting other stream before running flushes⟩)
      rw [← queued.keyed other stream before, same]
      exact known.id_eq queued

end

end StreamMap

namespace Connection

variable {conn next : Connection} {call : Call} {id : Nat} {old new : Stream}

section Flush

/-- The first stream of the queue that has anything to send has room for its header. -/
def FitsFirst (streams : Nat → Option Stream) (left : Nat) : StreamQueue → Prop
  | [] => True
  | key :: rest =>
    match streams key.id with
    | none => FitsFirst streams left rest
    | some stream =>
      if stream.send.isStopped then FitsFirst streams left rest
      else if ∀ hdrLen ∈ streamHeaderLen key.id stream.send.offFront, hdrLen ≤ left then True
      else stream.isFlushable = false ∧ FitsFirst streams left rest

instance decidableFitsFirst (streams : Nat → Option Stream) (left : Nat) :
    ∀ queue, Decidable (FitsFirst streams left queue)
  | [] => .isTrue trivial
  | key :: rest =>
    have := decidableFitsFirst streams left rest
    match found : streams key.id with
    | none => decidable_of_iff (FitsFirst streams left rest) (by rw [FitsFirst, found])
    | some stream =>
      decidable_of_iff (if stream.send.isStopped then FitsFirst streams left rest
        else if ∀ hdrLen ∈ streamHeaderLen key.id stream.send.offFront, hdrLen ≤ left then True
        else stream.isFlushable = false ∧ FitsFirst streams left rest) (by rw [FitsFirst, found])

theorem flushStreams_queued {fuel left : Nat} {streams result : StreamMap} {sent : Option StreamHeader}
    (queued : streams.Queued) (fits : FitsFirst streams.get left streams.flushable)
    (flushed : flushStreams fuel streams left = some (result, sent)) : result.Queued := by
  induction fuel generalizing streams with
  | zero =>
    rw [flushStreams] at flushed
    split at flushed
    · cases flushed
      exact queued
    · cases flushed
  | succ fuel ih =>
    rw [flushStreams] at flushed
    split at flushed
    · cases flushed
      exact queued
    rename_i key front
    obtain ⟨rest, queue⟩ := List.head?_eq_some_iff.mp front
    have member : key ∈ streams.flushable := by
      rw [queue]
      exact List.mem_cons_self
    rw [queue, FitsFirst] at fits
    -- The rest of the queue is looked at with the same streams.
    have later : FitsFirst streams.get left rest →
        FitsFirst (streams.removeFlushable key).get left (streams.removeFlushable key).flushable := by
      intro remaining
      rw [StreamMap.removeFlushable_flushable, queue, StreamQueue.remove, List.erase_cons_head]
      exact remaining
    dsimp only at flushed
    split at flushed
    · rename_i absent
      rw [absent] at fits
      apply ih (queued.remove fun stream found => ?_) (later fits) flushed
      cases absent.symm.trans found
    rename_i old found
    rw [found] at fits
    have keyed := queued.key_eq member found
    subst keyed
    dsimp only at fits
    split at flushed
    · rename_i stopped
      rw [if_pos stopped] at fits
      apply ih (queued.remove fun stream present running => ?_) (later fits) flushed
      cases found.symm.trans present
      rw [stopped] at running
      cases running
    rename_i running
    rw [if_neg running] at fits
    obtain ⟨hdrLen, header, flushed⟩ := Option.bind_eq_some_iff.mp flushed
    split at flushed
    · rename_i tight
      have large : ¬ ∀ size ∈ streamHeaderLen old.priorityKey.id old.send.offFront, size ≤ left := fun small =>
        absurd (small hdrLen header) (Nat.not_le.mpr tight)
      rw [if_neg large] at fits
      apply ih (queued.remove fun stream present _ => ?_) (later fits.2) flushed
      cases found.symm.trans present
      exact fits.1
    obtain ⟨⟨send, out, fin⟩, emitted, flushed⟩ := Option.bind_eq_some_iff.mp flushed
    cases flushed
    have changed : (streams.set old.priorityKey.id { old with send }).Queued :=
      queued.put (.inl found) (StreamMap.set_put streams old.priorityKey.id _) rfl (.inl rfl)
        fun _ _ => member
    have current : (streams.set old.priorityKey.id { old with send }).get old.priorityKey.id =
        some { old with send } := AList.lookup_insert streams.streams
    split
    · rename_i drained
      apply changed.remove
      intro stream present _
      cases current.symm.trans present
      simpa using drained
    · split
      · exact changed.requeue member
      · exact changed

end Flush

section Step

theorem Origin.known (origin : conn.Origin id old) : conn.streams.Known id old := by
  cases origin with
  | live found => exact .inl found
  | created absent _ fresh =>
    obtain ⟨maxRxData, maxTxData, window, rfl, _⟩ := fresh
    exact .inr ⟨absent, rfl, rfl⟩

/-- The sending side and its place in the queue stay. -/
structure SameSend (old new : Stream) : Prop where
  send : new.send = old.send
  key : new.priorityKey = old.priorityKey

theorem Touched.queued_of_same (touched : conn.Touched next id old new) (queued : conn.streams.Queued)
    (same : SameSend old new) (flushable : next.streams.flushable = conn.streams.flushable) : next.streams.Queued := by
  apply queued.put touched.origin.known touched.put same.key (.inl flushable)
  intro running flushes
  rw [Stream.isFlushable, same.send] at flushes
  rw [same.send] at running
  rw [flushable]
  exact touched.origin.known.waiting queued running flushes

theorem isFlushable_of_cut {send : SendBuf} (cut : SendBuf.Cut old.send send) :
    ({ old with send : Stream }).isFlushable = false := by
  rw [Stream.isFlushable, SendBuf.isEmpty, cut.data]
  rfl

theorem Touched.queued_of_cut {send : SendBuf} (touched : conn.Touched next id old { old with send })
    (queued : conn.streams.Queued) (cut : SendBuf.Cut old.send send)
    (flushable : next.streams.flushable = conn.streams.flushable) : next.streams.Queued := by
  apply queued.put touched.origin.known touched.put rfl (.inl flushable)
  intro _ flushes
  rw [isFlushable_of_cut cut] at flushes
  cases flushes

theorem Touched.queued_of_flagged {flushes extra : Bool} (touched : conn.Touched next id old new)
    (queued : conn.streams.Queued) (key : new.priorityKey = old.priorityKey)
    (error : new.send.error = old.send.error) (implies : new.isFlushable = true → flushes = true)
    (flushable : next.streams.flushable = if (flushes || extra) && !old.isFlushable then
      conn.streams.flushable.insert old.priorityKey else conn.streams.flushable) : next.streams.Queued := by
  have known := touched.origin.known
  apply queued.put known touched.put key
  · rw [flushable]
    split
    · exact .inr rfl
    · exact .inl rfl
  · intro running sendable
    have before : old.send.isStopped = false := by rw [← running, SendBuf.isStopped, SendBuf.isStopped, error]
    rw [flushable, implies sendable, Bool.true_or, Bool.true_and]
    cases earlier : old.isFlushable with
    | true => exact known.waiting queued before earlier
    | false => exact StreamQueue.mem_insert.mpr (.inl rfl)

theorem Left.queued (left : conn.Left next id new) (queued : conn.streams.Queued)
    (found : conn.streams.get id = some old) (key : new.priorityKey = old.priorityKey)
    (error : new.send.error = old.send.error) (implies : new.isFlushable = true → old.isFlushable = true) :
    next.streams.Queued := by
  cases left with
  | kept put flushable =>
    apply queued.put (.inl found) put key (.inl flushable)
    intro running sendable
    have before : old.send.isStopped = false := by
      rw [← running, SendBuf.isStopped, SendBuf.isStopped, error]
    rw [flushable]
    exact queued.waiting id old found before (implies sendable)
  | collected _ dropped flushable =>
    rw [key] at flushable
    exact queued.drop found dropped flushable

theorem Wrote.queued {Result : Type} {len : Nat} {fin : Bool}
    {writeFn : SendBuf → Nat → Bool → Option (SendBuf × Except Error (Nat × Result))}
    (wrote : conn.Wrote next id len fin writeFn) (queued : conn.streams.Queued)
    (extends_ : ∀ {send cap fin written result}, writeFn send cap fin = some (written, result) →
      SendBuf.Extended send cap (result.map (·.1)) written) : next.streams.Queued := by
  cases wrote with
  | refused frame =>
    rw [frame]
    exact queued
  | waiting old touched flushable frame => exact touched.queued_of_same queued ⟨rfl, rfl⟩ flushable
  | failed old send error called touched flushable frame =>
    exact touched.queued_of_same queued ⟨(extends_ called).failed error rfl, rfl⟩ flushable
  | wrote old send sent result blockedAt called touched flushable _ frame =>
    exact touched.queued_of_flagged queued rfl (extends_ called).error (fun sendable => sendable) flushable

theorem ackAndDrop_flushable {send : SendBuf} {offset length : Nat} (placed : old.send.Placed)
    (dropped : old.send.ackAndDrop offset length = some send)
    (sendable : ({ old with send : Stream }).isFlushable = true) : old.isFlushable = true := by
  obtain ⟨front, nonempty, limit⟩ := placed.ackAndDrop_offFront dropped
  have off := (SendBuf.ackAndDrop_kept dropped).off
  simp only [Stream.isFlushable, Bool.and_eq_true, Bool.not_eq_true', decide_eq_true_eq] at sendable ⊢
  obtain ⟨⟨data, unsent⟩, allowed⟩ := sendable
  refine ⟨⟨nonempty data, ?_⟩, by omega⟩
  rw [SendBuf.offBack] at unsent ⊢
  omega

/-- A packet that takes stream data has room for the first header. -/
def Fits (conn : Connection) : Call → Prop
  | .sendStream left =>
    maxStreamOverhead < left → FitsFirst conn.streams.get left conn.streams.flushable
  | _ => True

instance (conn : Connection) (call : Call) : Decidable (conn.Fits call) := by
  rcases call with ⟨⟩
  case sendStream => exact inferInstanceAs (Decidable (_ → _))
  all_goals exact .isTrue trivial

theorem step_queued (queued : conn.streams.Queued) (placed : conn.AllPlaced) (fits : conn.Fits call)
    (stepped : conn.step call = some next) : next.streams.Queued := by
  cases call with
  | stream streamId data =>
    rcases processStream_spec (processed_spec stepped) with
      rfl | ⟨old, recv, touched, _, _, _, flushable, _, _⟩
    · exact queued
    · exact touched.queued_of_same queued ⟨rfl, rfl⟩ flushable
  | resetStream streamId errorCode finalSize =>
    rcases processResetStream_spec (processed_spec stepped) with
      rfl | ⟨old, recv, delta, touched, _, _, flushable, _, _⟩
    · exact queued
    · exact touched.queued_of_same queued ⟨rfl, rfl⟩ flushable
  | stopSending streamId errorCode =>
    rcases processStopSending_spec (processed_spec stepped) with
      ⟨_, rfl⟩ | ⟨old, send, result, touched, stopped, _, flushable, _⟩
    · exact queued
    · cases result with
      | error error => exact touched.queued_of_same queued ⟨stop_error stopped, rfl⟩ flushable
      | ok sizes =>
        obtain ⟨cut, _⟩ := (touched.origin.placed placed).stop stopped
        exact touched.queued_of_cut queued cut flushable
  | maxData limit =>
    cases stepped
    exact queued
  | maxStreamData streamId limit =>
    rcases processMaxStreamData_spec (Option.some.inj (processed_spec stepped)) with
      rfl | ⟨old, new, touched, changed, flushable, _⟩
    · exact queued
    · have flagged : next.streams.flushable = if (new.isFlushable || false) && !old.isFlushable then
          conn.streams.flushable.insert old.priorityKey else conn.streams.flushable := by
        rw [flushable, Bool.or_false]
      exact touched.queued_of_flagged queued (by rw [changed]) (by rw [changed]; rfl)
        (fun sendable => sendable) flagged
  | peerTransportParams peerParams cwinAvailable =>
    obtain ⟨updated, computed, finished⟩ := Option.bind_eq_some_iff.mp (processed_spec stepped)
    obtain ⟨_, frame⟩ := updateTxCap_spec computed
    subst frame
    dsimp only at finished
    split at finished
    · cases finished
    · cases finished
      exact queued.of_eq rfl rfl
  | streamRecv streamId cap =>
    obtain ⟨result, received⟩ := called_spec stepped
    rcases streamRecv_spec received with rfl | ⟨old, recv, found, _, _, left, _, _, _⟩
    · exact queued
    · exact left.queued queued found rfl rfl fun sendable => sendable
  | streamSend streamId buf fin =>
    obtain ⟨result, sent⟩ := called_spec stepped
    exact (streamDoSend_spec sent).queued queued write_extends
  | streamSendZc streamId buf len fin =>
    obtain ⟨result, sent⟩ := called_spec stepped
    exact (streamDoSend_spec sent).queued queued append_extends
  | streamPriority streamId urgency incremental =>
    rcases streamPriority_spec (Prod.ext (Option.some.inj stepped) rfl) with
      rfl | ⟨old, _, ⟨touched, flushable⟩ | ⟨touched, flushable⟩⟩
    · exact queued
    · exact touched.queued_of_same queued ⟨rfl, rfl⟩ flushable
    · exact queued.updatePriority touched.origin.known touched.put rfl rfl flushable
  | streamShutdown streamId direction err cwinAvailable =>
    obtain ⟨result, shut⟩ := called_spec stepped
    cases direction with
    | read =>
      rcases streamShutdown_read_spec shut with rfl | ⟨old, recv, found, _, put, flushable, _⟩
      · exact queued
      · have touched : conn.Touched next streamId old { old with recv } := ⟨.live found, put⟩
        exact touched.queued_of_same queued ⟨rfl, rfl⟩ flushable
    | write =>
      rcases streamShutdown_write_spec shut with
        ⟨rfl, _⟩ | ⟨old, send, _, _, found, _, done, put, flushable, _, _⟩
      · exact queued
      · obtain ⟨cut, _, _⟩ := (placed streamId old found).shutdown done
        have touched : conn.Touched next streamId old { old with send } := ⟨.live found, put⟩
        exact touched.queued_of_cut queued cut flushable
  | ackedStream streamId offset length =>
    rcases ackedStream_spec stepped with ⟨_, rfl⟩ | ⟨old, send, found, dropped, left, _⟩
    · exact queued
    · exact left.queued queued found rfl (SendBuf.ackAndDrop_kept dropped).error
        (ackAndDrop_flushable (placed streamId old found) dropped)
  | ackedResetStream streamId =>
    rcases ackedResetStream_spec stepped with rfl | ⟨old, found, left, _⟩
    · exact queued
    · exact left.queued queued found rfl rfl fun sendable => sendable
  | lostStream lost =>
    rcases lostStream_spec stepped with rfl | ⟨old, send, found, requeued, put, flushable, _⟩
    · exact queued
    · have touched : conn.Touched next lost.streamId old { old with send } := ⟨.live found, put⟩
      exact touched.queued_of_flagged queued rfl (SendBuf.retransmit_kept requeued).error
        (fun sendable => sendable) flushable
  | sendStream left =>
    obtain ⟨⟨sender, sent⟩, sending, rfl⟩ := Option.map_eq_some_iff.mp stepped
    rcases sendStream_spec sending with rfl | ⟨room, flushed, _⟩
    · exact queued
    · exact flushStreams_queued queued (fits room) flushed
  | updateTxCap cwinAvailable =>
    obtain ⟨_, frame⟩ := updateTxCap_spec stepped
    rw [frame]
    exact queued
  | updateFlowControl control =>
    cases stepped
    exact queued
  | updateStreamFlowControl streamId control =>
    rcases updateStreamFlowControl_spec conn streamId control with same | ⟨old, flowControl, found, changed⟩
    · cases stepped
      rw [same]
      exact queued
    · cases stepped
      rw [changed]
      exact queued.put (.inl found) (StreamMap.set_put conn.streams streamId _) rfl (.inl rfl)
        (queued.waiting streamId old found)
  | updateMaxStreams peerBidi peerUni localBidi localUni =>
    cases stepped
    exact queued.of_eq rfl rfl

end Step

namespace History

variable {history next : History}

/-- Streams are placed well and queued. -/
structure Served (history : History) : Prop where
  placed : history.conn.AllPlaced
  queued : history.conn.streams.Queued

theorem Served.step (served : history.Served) (fits : history.conn.Fits call)
    (stepped : machine.step history call = some next) : next.Served := by
  obtain ⟨moved, _⟩ := machine_step stepped
  exact ⟨served.placed.step moved, step_queued served.queued served.placed fits moved⟩

theorem start_served (config : Config) (scid : List UInt8) (localAddr peerAddr : SocketAddr)
    (addressVerified isServer : Bool) : (start config scid localAddr peerAddr addressVerified isServer).Served := by
  refine ⟨start_allPlaced config scid localAddr peerAddr addressVerified isServer, .nil, ?_, ?_, ?_⟩
  · intro key member
    cases member
  · intro id stream found
    cases found
  · intro id stream found
    cases found

/-- As long as the header of the first stream fits into every packet that has room for a
STREAM frame, no stream with data to send is missing from the queue, and every queued key
belongs to a live stream. -/
theorem flushable_streams_queued (config : Config) (scid : List UInt8) (localAddr peerAddr : SocketAddr)
    (addressVerified isServer : Bool) (calls : List Call) (history : History) (fits : machine.Guarded (·.conn.Fits)
      (start config scid localAddr peerAddr addressVerified isServer) calls)
    (completed : machine.run (start config scid localAddr peerAddr addressVerified isServer) calls = some history) :
    (∀ id stream, history.conn.streams.get id = some stream → stream.send.isStopped = false →
        stream.isFlushable = true → stream.priorityKey ∈ history.conn.streams.flushable) ∧
      ∀ key ∈ history.conn.streams.flushable, ∃ stream, history.conn.streams.get key.id = some stream ∧
        stream.priorityKey = key := by
  have served := machine.run_keeps_of_guarded
    (fun history call next served fits stepped => Served.step served fits stepped)
    (start_served config scid localAddr peerAddr addressVerified isServer) fits completed
  exact ⟨served.queued.waiting, served.queued.owned⟩

/-- A stream waits again after part of its data was sent and lost. -/
theorem flushable_streams_queued_lost :
    ∃ history stream, machine.run (start smallConfig [1] ⟨[1], 1⟩ ⟨[2], 2⟩ false true)
        [.peerTransportParams peerLimits 10, .streamSend 1 [1, 2, 3] false, .streamSend 5 [4, 5] true,
          .streamPriority 1 3 false, .sendStream 13, .sendStream 100, .sendStream 100, .stopSending 5 7,
          .ackedStream 1 0 1, .lostStream ⟨1, 1, 2, false⟩] = some history ∧
      history.conn.streams.get 1 = some stream ∧ stream.isFlushable = true ∧
      stream.priorityKey ∈ history.conn.streams.flushable :=
  exists_reached_next_of (·.conn.streams.get 1)
    (fun _ stream => stream.send.isStopped = false ∧ stream.isFlushable = true) (by decide +kernel)
    fun history stream completed found ⟨running, sendable⟩ =>
      ⟨found, sendable, (flushable_streams_queued smallConfig [1] ⟨[1], 1⟩ ⟨[2], 2⟩ false true _ history
        (by decide +kernel) completed).1 1 stream found running sendable⟩

/-- As `smallConfig`, with room for many streams. -/
def manyStreams : Config :=
  { smallConfig with localTransportParams := ⟨100, 50, 50, 50, 2 ^ 28 + 1, 4, 2⟩ }

/-- Two packets take a stream with an identifier of eight bytes past offset 16383. A
header of 15 bytes does not fit into a packet with 13 bytes of space. -/
theorem large_header_unqueues : ∃ history stream, machine.run (start manyStreams [1] ⟨[1], 1⟩ ⟨[2], 2⟩ false true)
        [.peerTransportParams ⟨20000, 20000, 20000, 20000, 4, 4, 2⟩ 20000,
          .stream (2 ^ 30) (.fromBytes [1] 0 false),
          .streamSend (2 ^ 30) (List.replicate 16600 0) false, .sendStream 8300, .sendStream 8300,
          .sendStream 13] = some history ∧
      history.conn.streams.get (2 ^ 30) = some stream ∧ stream.send.isStopped = false ∧
      stream.isFlushable = true ∧ ¬ stream.priorityKey ∈ history.conn.streams.flushable :=
  exists_reached_next_of (·.conn.streams.get (2 ^ 30))
    (fun history stream => stream.send.isStopped = false ∧ stream.isFlushable = true ∧
      ¬ stream.priorityKey ∈ history.conn.streams.flushable) (by decide +kernel) fun _ _ _ found shown => ⟨found, shown⟩

end History

end Connection

end Quiche
