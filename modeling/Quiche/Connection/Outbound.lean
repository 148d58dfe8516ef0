import Quiche.Connection.Drain
import Quiche.Stream.SendBuf.Final

namespace Quiche

open Data

namespace StreamMap

open SendBuf

variable {map next : StreamMap} {id other : Nat} {old new : Stream} {holds : Stream → Prop} {isServer : Bool}

/-- The stream with the id, if there is one, has the property. -/
def At (id : Nat) (holds : Stream → Prop) (map : StreamMap) : Prop := ∀ stream, map.get id = some stream → holds stream

theorem At.set (held : map.At id holds) (found : map.get other = some old)
    (kept : other = id → holds old → holds new) : (map.set other new).At id holds := by
  intro stream known
  rw [get, set_put map other new] at known
  split at known
  · rename_i same
    cases known
    exact kept same.symm (held old (same ▸ found))
  · exact held stream known

theorem At.collect (held : map.At id holds) {locally : Bool} (collected : map.collect other locally = some next) :
    next.At id holds := by
  obtain ⟨stream, _, same⟩ := Option.bind_eq_some_iff.mp collected
  cases same
  intro stream known
  rw [get, dropped_erase map.streams other] at known
  split at known
  · cases known
  · exact held stream known

theorem at_maintains (isServer : Bool) {scope : Scope}
    (fresh : ∀ localParams peerParams window, scope.peers peerParams →
      holds (.new id (initialLimits id localParams peerParams (isLocal id isServer)).1
        (initialLimits id localParams peerParams (isLocal id isServer)).2 (isBidi id) (isLocal id isServer) window))
    (change : ∀ {kind old new}, scope.allows kind id → Stream.Change old kind new → holds old → holds new)
    (prioritized : ∀ {old : Stream} (urgency : UInt8) (incremental : Bool) (key : StreamPriorityKey),
      holds old → holds { old with urgency, incremental, priorityKey := key }) :
    Maintains isServer scope (At id holds) where
  open_ {map next other localParams peerParams locally stream} held peers handed := by
    have opened := getOrCreate_opened handed
    intro known found
    rw [get, opened.put] at found
    split at found
    · rename_i same
      subst same
      cases found
      rcases getOrCreate_cases handed with ⟨_, before⟩ | ⟨_, _, rfl, counted, _, _, rfl, _⟩
      · exact held _ before
      · exact fresh localParams peerParams _ peers
    · exact held known found
  change held allowed found changes := held.set found fun same => change (same ▸ allowed) changes
  prioritize urgency incremental held found :=
    At.set held found fun _ before => prioritized urgency incremental _ before
  readable _ held := held
  writable _ held := held
  almostFull _ held := held
  blocked _ held := held
  flush held _ _ := held
  reset _ _ held _ := held
  stopped _ _ held := held
  collect held _ _ collected := held.collect collected
  peerMax _ _ held := held

theorem at_unlinks (id : Nat) (holds : Stream → Prop) : Unlinks (At id holds) where
  reflush held _ _ := held
  unflush _ held := held

/-- The stream was opened, and it has the property for as long as it is stored. -/
structure Follows (id : Nat) (holds : Stream → Prop) (map : StreamMap) : Prop where
  seen : (map.get id).isSome = true ∨ id ∈ map.collected
  held : map.At id holds

theorem follows_maintains (isServer : Bool) {scope : Scope}
    (change : ∀ {kind old new}, scope.allows kind id → Stream.Change old kind new → holds old → holds new)
    (prioritized : ∀ {old : Stream} (urgency : UInt8) (incremental : Bool) (key : StreamPriorityKey),
      holds old → holds { old with urgency, incremental, priorityKey := key }) :
    Maintains isServer scope (Follows id holds) where
  open_ {map next other localParams peerParams locally stream} follows _ handed := by
    have opened := getOrCreate_opened handed
    refine ⟨?_, ?_⟩
    · rw [opened.collected, get, opened.put]
      rcases follows.seen with present | collected
      · left
        split
        · rfl
        · exact present
      · exact .inr collected
    · intro known found
      rw [get, opened.put] at found
      split at found
      · rename_i same
        subst same
        cases found
        rcases opened.origin with before | ⟨absent, uncollected, _⟩
        · exact follows.held _ before
        · rcases follows.seen with present | collected
          · rw [absent] at present
            cases present
          · exact absurd collected uncollected
      · exact follows.held known found
  change {map other kind old new} follows allowed found changes := by
    refine ⟨?_, follows.held.set found fun same => change (same ▸ allowed) changes⟩
    rw [get, set_put map other new]
    split
    · exact .inl rfl
    · exact follows.seen
  prioritize {map other old} urgency incremental follows found := by
    refine ⟨?_, At.set follows.held found fun _ before => prioritized urgency incremental _ before⟩
    show ((map.set other _).get id).isSome = true ∨ _
    rw [get, set_put map other]
    split
    · exact .inl rfl
    · exact follows.seen
  readable _ follows := ⟨follows.seen, follows.held⟩
  writable _ follows := ⟨follows.seen, follows.held⟩
  almostFull _ follows := ⟨follows.seen, follows.held⟩
  blocked _ follows := ⟨follows.seen, follows.held⟩
  flush follows _ _ := ⟨follows.seen, follows.held⟩
  reset _ _ follows _ := ⟨follows.seen, follows.held⟩
  stopped _ _ follows := ⟨follows.seen, follows.held⟩
  collect {map next other stream} follows _ _ collected := by
    refine ⟨?_, follows.held.collect collected⟩
    obtain ⟨stream, _, same⟩ := Option.bind_eq_some_iff.mp collected
    cases same
    by_cases same : id = other
    · exact .inr (Finset.mem_insert.mpr (.inl same))
    · rcases follows.seen with present | before
      · left
        rw [get, dropped_erase map.streams other, if_neg same]
        exact present
      · exact .inr (Finset.mem_insert.mpr (.inr before))
  peerMax _ _ follows := ⟨follows.seen, follows.held⟩

theorem follows_unlinks (id : Nat) (holds : Stream → Prop) : Unlinks (Follows id holds) where
  reflush follows _ _ := ⟨follows.seen, follows.held⟩
  unflush _ follows := ⟨follows.seen, follows.held⟩

section Send

/-- The change neither shuts the stream down nor acknowledges a frame, and its limit is encodable. -/
def Regular : Stream.Kind → Prop
  | .raise limit => limit < 2 ^ 62
  | .cut | .ack => False
  | .call | .write | .emit | .lose => True

/-- The queue of the stream is in order. -/
def Ordered (stream : Stream) : Prop := ∃ bytes, Valid bytes stream.send

theorem valid_blockedAt {bytes : List UInt8} {send : SendBuf} (valid : Valid bytes send) (blockedAt : Option Nat) :
    Valid bytes { send with blockedAt } :=
  ⟨valid.contiguous, valid.showing, valid.off_eq, valid.pos_le, valid.consumed, valid.off_le, valid.small,
    valid.unreadLen_le, valid.acked, valid.running, valid.finOff_eq⟩

theorem Ordered.change {kind : Stream.Kind} (ordered : Ordered old) (regular : Regular kind)
    (change : old.Change kind new) : Ordered new := by
  obtain ⟨bytes, valid⟩ := ordered
  cases change with
  | same | received | reset | read | shutRead | tuned => exact ⟨bytes, valid⟩
  | wrote data fin send result blockedAt written =>
    obtain ⟨_, _, wrote, outcome⟩ := write_spec valid data fin
    cases wrote.symm.trans written
    rcases outcome with ⟨_, _, rfl⟩ | ⟨count, _, stored, _⟩
    · exact ⟨bytes, valid_blockedAt valid blockedAt⟩
    · exact ⟨_, valid_blockedAt stored blockedAt⟩
  | appended data cap fin send result blockedAt written =>
    obtain ⟨_, _, wrote, outcome⟩ := appendBuf_spec valid data cap fin
    cases wrote.symm.trans written
    rcases outcome with ⟨_, _, rfl⟩ | ⟨count, _, _, stored, _⟩
    · exact ⟨bytes, valid_blockedAt valid blockedAt⟩
    · exact ⟨_, valid_blockedAt stored blockedAt⟩
  | raised limit => exact ⟨bytes, valid.updateMaxData regular⟩
  | stopped | shutWrite | acked => exact regular.elim
  | emitted outLen send out fin emitted =>
    obtain ⟨_, _, _, wrote, kept, _⟩ := emit_spec valid outLen
    cases wrote.symm.trans emitted
    exact ⟨bytes, kept⟩
  | lost offset length send requeued =>
    obtain ⟨_, wrote, kept, _⟩ := retransmit_spec valid offset length
    cases wrote.symm.trans requeued
    exact ⟨bytes, kept⟩

theorem ordered_maintains (isServer : Bool) (id : Nat) :
    Maintains isServer { peers := TransportParams.Small, allows := fun kind other => other = id → Regular kind }
      (At id Ordered) := at_maintains isServer (fun _ _ _ small => ⟨[], new_valid (initialLimits_lt small)⟩)
    (fun regular change ordered => ordered.change (regular rfl) change) fun _ _ _ ordered => ordered

/-- The direction and the side of the stream are those its id gives. -/
structure Sided (isServer : Bool) (id : Nat) (stream : Stream) : Prop where
  bidi : stream.bidi = isBidi id
  locality : stream.isLocal = isLocal id isServer

theorem sided_maintains (isServer : Bool) (id : Nat) : Maintains isServer {} (At id (Sided isServer id)) := by
  refine at_maintains isServer (fun _ _ _ _ => ⟨rfl, rfl⟩) (fun {kind old new} _ change sided => ?_)
    fun _ _ _ sided => ⟨sided.bidi, sided.locality⟩
  cases change <;> exact ⟨sided.bidi, sided.locality⟩

theorem Sided.incomplete {stream : Stream} (sided : Sided isServer id stream) (sends : maySend id isServer = true)
    (incomplete : stream.send.isComplete = false) : stream.isComplete = false := by
  rw [maySend, ← sided.bidi, ← sided.locality] at sends
  rw [Stream.isComplete]
  split
  · rw [incomplete, Bool.and_false]
  · exact incomplete
  · rename_i uni remote
    rw [uni, remote] at sends
    cases sends

/-- The frame carries bytes the buffer has emitted, and FIN only at their end. -/
structure FrameWithin (frame : StreamHeader) (stream : Stream) : Prop where
  sent : frame.offset + frame.length ≤ stream.send.off
  ends : frame.fin = true → stream.send.finOff = some stream.send.off ∧ frame.offset + frame.length = stream.send.off

variable {frame : StreamHeader}

theorem FrameWithin.filled {send : SendBuf} (within : FrameWithin frame old) (filled : Filled old.send send)
    (grown : old.send.off ≤ send.off) (blockedAt : Option Nat) :
    FrameWithin frame { old with send := { send with blockedAt } } := by
  refine ⟨Nat.le_trans within.sent grown, fun isFin => ?_⟩
  obtain ⟨known, reaches⟩ := within.ends isFin
  obtain ⟨off, final, _⟩ := filled.final known
  exact ⟨final.trans (congrArg some off.symm), reaches.trans off.symm⟩

theorem FrameWithin.change {kind : Stream.Kind} (within : FrameWithin frame old) (whole : kind ≠ .cut)
    (change : old.Change kind new) : FrameWithin frame new := by
  cases change with
  | same | received | reset | read | shutRead | tuned | raised => exact ⟨within.sent, within.ends⟩
  | wrote data fin send result blockedAt written =>
    exact within.filled (write_filled written) (by rw [(write_extends written).off]; omega) blockedAt
  | appended data cap fin send result blockedAt written =>
    exact within.filled (appendBuf_filled written) (by rw [(appendBuf_extends written).off]; omega) blockedAt
  | stopped | shutWrite => exact absurd rfl whole
  | emitted outLen send out fin emitted =>
    obtain ⟨⟨_, _, _, rfl⟩, _⟩ := emit_frame emitted
    exact ⟨within.sent, within.ends⟩
  | acked offset length send dropped =>
    obtain ⟨_, _, rfl⟩ := ackAndDrop_frame dropped
    exact ⟨within.sent, within.ends⟩
  | lost offset length send requeued =>
    obtain ⟨_, _, _, rfl⟩ := retransmit_frame requeued
    exact ⟨within.sent, within.ends⟩

theorem within_maintains (isServer : Bool) (frame : StreamHeader) :
    Maintains isServer { allows := fun kind other => other = frame.streamId → kind ≠ .cut }
      (Follows frame.streamId (FrameWithin frame)) :=
  follows_maintains isServer (fun whole change within => within.change (whole rfl) change)
    fun _ _ _ within => ⟨within.sent, within.ends⟩

theorem open_maintains (isServer : Bool) (id : Nat) :
    Maintains isServer { allows := fun kind other => other = id → kind ≠ .cut ∧ kind ≠ .write }
      (At id fun stream => stream.send.finOff = none) := by
  refine at_maintains isServer (fun _ _ _ _ => rfl) (fun {kind old new} allowed change unended => ?_)
    fun _ _ _ unended => unended
  obtain ⟨whole, quiet⟩ := allowed rfl
  cases change with
  | same | received | reset | read | shutRead | tuned | raised => exact unended
  | wrote | appended => exact absurd rfl quiet
  | stopped | shutWrite => exact absurd rfl whole
  | emitted outLen send out fin emitted =>
    obtain ⟨⟨_, _, _, rfl⟩, _⟩ := emit_frame emitted
    exact unended
  | acked offset length send dropped =>
    obtain ⟨_, _, rfl⟩ := ackAndDrop_frame dropped
    exact unended
  | lost offset length send requeued =>
    obtain ⟨_, _, _, rfl⟩ := retransmit_frame requeued
    exact unended

end Send

section Pending

/-- The stream is flushable, with a FIN still to be sent. -/
structure Pending (id : Nat) (map : StreamMap) : Prop where
  keyed : ∀ other stream, map.get other = some stream → stream.priorityKey.id = other
  waits : ∃ stream, map.get id = some stream ∧ stream.priorityKey ∈ map.flushable ∧ stream.send.Finishing

theorem Pending.congr (pending : map.Pending id) (streams : next.streams = map.streams)
    (members : ∀ key ∈ map.flushable, key.id = id → key ∈ next.flushable) : next.Pending id := by
  have same : ∀ other, next.get other = map.get other := fun other => by rw [get, get, streams]
  obtain ⟨stream, found, linked, finishing⟩ := pending.waits
  refine ⟨fun other stream known => pending.keyed other stream (same other ▸ known), stream, ?_, ?_, finishing⟩
  · rw [same]
    exact found
  · exact members _ linked (pending.keyed id stream found)

theorem Pending.set (pending : map.Pending id) (found : map.get other = some old)
    (key : new.priorityKey = old.priorityKey) (kept : other = id → old.send.Finishing → new.send.Finishing) :
    (map.set other new).Pending id := by
  have elsewhere : ∀ third, third ≠ other → (map.set other new).get third = map.get third := by
    intro third different
    rw [get, set_put map other new, if_neg different, get]
  constructor
  · intro third stream known
    by_cases same : third = other
    · subst same
      rw [get_set] at known
      cases known
      rw [key]
      exact pending.keyed third old found
    · rw [elsewhere third same] at known
      exact pending.keyed third stream known
  · obtain ⟨stream, present, linked, finishing⟩ := pending.waits
    by_cases same : id = other
    · subst same
      rw [found] at present
      cases present
      refine ⟨new, get_set .., ?_, kept rfl finishing⟩
      rw [key]
      exact linked
    · refine ⟨stream, ?_, linked, finishing⟩
      rw [elsewhere id same]
      exact present

/-- The change neither emits nor shuts down the stream, and no frame of it is acknowledged or lost. -/
def Idles : Stream.Kind → Prop
  | .call | .write | .raise _ => True
  | .cut | .emit | .ack | .lose => False

theorem finishing_change {kind : Stream.Kind} (finishing : old.send.Finishing) (idles : Idles kind)
    (change : old.Change kind new) : new.send.Finishing := by
  cases change with
  | same | received | reset | read | shutRead | tuned => exact finishing
  | raised => exact ⟨finishing.final, finishing.tail⟩
  | wrote data fin send result blockedAt written =>
    have kept := finishing.filled (write_filled written)
    exact ⟨kept.final, kept.tail⟩
  | appended data cap fin send result blockedAt written =>
    have kept := finishing.filled (appendBuf_filled written)
    exact ⟨kept.final, kept.tail⟩
  | stopped | shutWrite | emitted | acked | lost => exact idles.elim

theorem pending_maintains (isServer : Bool) (id : Nat) :
    Maintains isServer { may := (· ≠ id), allows := fun kind other => other = id → Idles kind } (Pending id) where
  open_ {map next other localParams peerParams locally stream} pending _ handed := by
    have opened := getOrCreate_opened handed
    obtain ⟨known, found, linked, finishing⟩ := pending.waits
    constructor
    · intro third stream found
      rw [get, opened.put] at found
      split at found
      · rename_i same
        subst same
        cases found
        rcases opened.origin with before | ⟨_, _, _, _, _, _, _, rfl⟩
        · exact pending.keyed third _ before
        · rfl
      · exact pending.keyed third stream found
    · refine ⟨known, ?_, by rw [opened.flushable]; exact linked, finishing⟩
      rw [get, opened.put]
      split
      · rename_i same
        subst same
        rcases opened.origin with before | ⟨absent, _⟩
        · exact before.symm.trans found
        · cases absent.symm.trans found
      · exact found
  change pending idles found change :=
    pending.set found change.key_eq fun same finishing => finishing_change finishing (idles same) change
  prioritize {map other old} urgency incremental pending found := by
    obtain ⟨stream, present, linked, finishing⟩ := pending.waits
    have keyed : ∀ third stream,
        (map.set other { old with urgency, incremental, priorityKey := ⟨urgency, incremental, other⟩ }).get third =
          some stream → stream.priorityKey.id = third := by
      intro third stream known
      rw [get, set_put map other] at known
      split at known
      · rename_i same
        cases known
        exact same.symm
      · exact pending.keyed third stream known
    refine ⟨keyed, ?_⟩
    by_cases same : id = other
    · subst same
      rw [found] at present
      cases present
      refine ⟨_, get_set .., ?_, finishing⟩
      show _ ∈ map.flushable.updatePriority old.priorityKey ⟨urgency, incremental, id⟩
      rw [StreamQueue.updatePriority, if_pos linked]
      exact (StreamQueue.link_perm _ _).mem_iff.mpr List.mem_cons_self
    · refine ⟨stream, ?_, ?_, finishing⟩
      · show (map.set other _).get id = _
        rw [get, set_put map other, if_neg same]
        exact present
      · show _ ∈ map.flushable.updatePriority old.priorityKey ⟨urgency, incremental, other⟩
        rw [StreamQueue.updatePriority]
        split
        · refine (StreamQueue.link_perm _ _).mem_iff.mpr (List.mem_cons_of_mem _ ?_)
          refine (List.mem_erase_of_ne fun equal => same ?_).mpr linked
          rw [← pending.keyed id stream present, equal]
          exact pending.keyed other old found
        · exact linked
  readable _ pending := ⟨pending.keyed, pending.waits⟩
  writable _ pending := ⟨pending.keyed, pending.waits⟩
  almostFull _ pending := ⟨pending.keyed, pending.waits⟩
  blocked _ pending := ⟨pending.keyed, pending.waits⟩
  flush pending _ _ := pending.congr rfl fun _ member _ => StreamQueue.mem_insert.mpr (.inr member)
  reset _ _ pending _ := ⟨pending.keyed, pending.waits⟩
  stopped _ _ pending := ⟨pending.keyed, pending.waits⟩
  collect {map next other stream} pending different found collected := by
    rw [collect, found] at collected
    cases collected
    obtain ⟨known, present, linked, finishing⟩ := pending.waits
    constructor
    · intro third stream present
      rw [get, dropped_erase map.streams other] at present
      split at present
      · cases present
      · exact pending.keyed third stream present
    · refine ⟨known, ?_, ?_, finishing⟩
      · rw [get, dropped_erase map.streams other, if_neg (Ne.symm different)]
        exact present
      · refine (List.mem_erase_of_ne fun equal => different ?_).mpr linked
        rw [← pending.keyed other stream found, ← equal]
        exact pending.keyed id known present
  peerMax _ _ pending := ⟨pending.keyed, pending.waits⟩

end Pending

end StreamMap

end Quiche
