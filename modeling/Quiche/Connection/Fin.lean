import Quiche.Connection.Outbound

namespace Quiche.Connection

open Data StreamMap SendBuf

structure Outbound where
  conn : Connection
  sent : Ledger StreamHeader

/-- What happens to a connection and its packets. A frame that was sent may be reported as
acknowledged or lost at any time; a copy of it is a frame of its own. -/
inductive Outbound.Event where
  | call (call : Call)
  | send (left : Nat)
  | acked (index : Nat)
  | lost (index : Nat)

def Outbound.Event.cuts : Outbound.Event → Option Nat
  | .call made =>
    match made.changes with
    | some (.cut, id) => some id
    | _ => none
  | _ => none

namespace Outbound

def start (config : Config) (scid : List UInt8) (localAddr peerAddr : SocketAddr)
    (addressVerified isServer : Bool) : Outbound :=
  ⟨Connection.new config scid localAddr peerAddr addressVerified isServer, []⟩

def step (outbound : Outbound) : Event → Option Outbound
  | .call call =>
    if call.direct && call.plain then (outbound.conn.step call).map fun conn => { outbound with conn }
    else none
  | .send left =>
    (outbound.conn.sendStream left).map fun (conn, header) =>
      ⟨conn, header.elim outbound.sent outbound.sent.send⟩
  | .acked index => do
    let (frame, sent) ← outbound.sent.report index .acked
    return ⟨← outbound.conn.ackedStream frame.streamId frame.offset frame.length, sent⟩
  | .lost index => do
    let (frame, sent) ← outbound.sent.report index .lost
    return ⟨← outbound.conn.lostStream frame, sent⟩

def machine : Machine Outbound Event := ⟨step⟩

end Outbound

section Head

/-- The first stream of the queue that is not stopped has room for its header. -/
def FitsHead (streams : Nat → Option Stream) (left : Nat) : StreamQueue → Prop
  | [] => True
  | key :: rest =>
    match streams key.id with
    | none => FitsHead streams left rest
    | some stream =>
      if stream.send.isStopped then FitsHead streams left rest
      else ∀ hdrLen ∈ streamHeaderLen key.id stream.send.offFront, hdrLen ≤ left

instance decidableFitsHead (streams : Nat → Option Stream) (left : Nat) :
    ∀ queue, Decidable (FitsHead streams left queue)
  | [] => .isTrue trivial
  | key :: rest =>
    have := decidableFitsHead streams left rest
    match found : streams key.id with
    | none => decidable_of_iff (FitsHead streams left rest) (by rw [FitsHead, found])
    | some stream =>
      decidable_of_iff (if stream.send.isStopped then FitsHead streams left rest
        else ∀ hdrLen ∈ streamHeaderLen key.id stream.send.offFront, hdrLen ≤ left) (by rw [FitsHead, found])

theorem FitsHead.first {streams : Nat → Option Stream} {left : Nat} {queue : StreamQueue}
    (fits : FitsHead streams left queue) : FitsFirst streams left queue := by
  induction queue with
  | nil => trivial
  | cons key rest ih =>
    rw [FitsHead] at fits
    rw [FitsFirst]
    split
    · rename_i absent
      rw [absent] at fits
      exact ih fits
    · rename_i stream found
      rw [found] at fits
      dsimp only at fits
      split
      · rename_i stopped
        rw [if_pos stopped] at fits
        exact ih fits
      · rename_i running
        rw [if_neg running] at fits
        rw [if_pos fits]
        trivial

theorem flushStreams_stays {fuel left : Nat} {streams result : StreamMap} {sent : Option StreamHeader}
    {key : StreamPriorityKey} {stream : Stream} (queued : streams.Queued)
    (fits : FitsHead streams.get left streams.flushable)
    (flushed : flushStreams fuel streams left = some (result, sent)) (linked : key ∈ streams.flushable)
    (found : streams.get key.id = some stream) (running : stream.send.isStopped = false) :
    key ∈ result.flushable ∨ ∃ header, sent = some header ∧ header.streamId = key.id := by
  induction fuel generalizing streams with
  | zero =>
    rw [flushStreams] at flushed
    split at flushed
    · cases flushed
      exact .inl linked
    · cases flushed
  | succ fuel ih =>
    rw [flushStreams] at flushed
    split at flushed
    · cases flushed
      exact .inl linked
    rename_i front first
    obtain ⟨rest, queue⟩ := List.head?_eq_some_iff.mp first
    rw [queue, FitsHead] at fits
    -- A key that belongs to no stream, or to one that was stopped, is another one.
    have skipped : (∀ stream, streams.get front.id = some stream → stream.send.isStopped = true) →
        FitsHead streams.get left rest → flushStreams fuel (streams.removeFlushable front) left =
          some (result, sent) → key ∈ result.flushable ∨ ∃ header, sent = some header ∧ header.streamId = key.id := by
      intro idle later flushed
      have different : key ≠ front := by
        rintro rfl
        rw [idle stream found] at running
        cases running
      refine ih (queued.remove fun stream present running => ?_) ?_ flushed
        ((StreamQueue.mem_remove queued.nodup).mpr ⟨different, linked⟩) found
      · rw [idle stream present] at running
        cases running
      · rw [removeFlushable_flushable, queue, StreamQueue.remove, List.erase_cons_head]
        exact later
    dsimp only at flushed
    split at flushed
    · rename_i absent
      rw [absent] at fits
      exact skipped (fun stream present => by rw [absent] at present; cases present) fits flushed
    rename_i old present
    rw [present] at fits
    dsimp only at fits
    split at flushed
    · rename_i stopped
      rw [if_pos stopped] at fits
      refine skipped (fun stream known => ?_) fits flushed
      cases present.symm.trans known
      exact stopped
    rename_i goes
    rw [if_neg goes] at fits
    obtain ⟨hdrLen, header, flushed⟩ := Option.bind_eq_some_iff.mp flushed
    rw [if_neg (Nat.not_lt.mpr (fits hdrLen header))] at flushed
    obtain ⟨⟨send, out, fin⟩, emitted, flushed⟩ := Option.bind_eq_some_iff.mp flushed
    cases flushed
    by_cases same : front.id = key.id
    · exact .inr ⟨_, rfl, same⟩
    left
    have different : key ≠ old.priorityKey := by
      rintro rfl
      exact same (queued.keyed front.id old present).symm
    have removed : key ∈ streams.flushable.remove old.priorityKey :=
      (StreamQueue.mem_remove queued.nodup).mpr ⟨different, linked⟩
    split
    · exact removed
    split
    · exact StreamQueue.mem_insert.mpr (.inr removed)
    · exact linked

end Head

namespace Outbound

variable {outbound after : Outbound} {event : Outbound.Event} {scope : Scope} {invariant : StreamMap → Prop}
  {id : Nat}

section Step

theorem step_maintains (maintains : Maintains outbound.conn.isServer scope invariant)
    (unlinks : Unlinks invariant) (covers : ∀ call, event = .call call → Covers scope outbound.conn call)
    (emits : ∀ left, event = .send left → ∀ id, scope.allows .emit id)
    (acks : ∀ index frame sent, event = .acked index → outbound.sent.report index .acked = some (frame, sent) →
      scope.may frame.streamId ∧ scope.allows .ack frame.streamId)
    (loses : ∀ index frame sent, event = .lost index → outbound.sent.report index .lost = some (frame, sent) →
      scope.sends frame.streamId ∧ scope.allows .lose frame.streamId)
    (holds : invariant outbound.conn.streams) (stepped : outbound.step event = some after) :
    invariant after.conn.streams := by
  cases event with
  | call call =>
    rw [Outbound.step] at stepped
    split at stepped
    · rename_i admitted
      obtain ⟨conn, moved, rfl⟩ := Option.map_eq_some_iff.mp stepped
      exact Connection.step_maintains maintains (covers call rfl) holds (Bool.and_eq_true_iff.mp admitted).1 moved
    · cases stepped
  | send left =>
    obtain ⟨⟨conn, header⟩, sending, rfl⟩ := Option.map_eq_some_iff.mp stepped
    exact sendStream_maintains maintains unlinks (emits left rfl) holds sending
  | acked index =>
    obtain ⟨⟨frame, sent⟩, reported, stepped⟩ := Option.bind_eq_some_iff.mp stepped
    obtain ⟨conn, acked, stepped⟩ := Option.bind_eq_some_iff.mp stepped
    cases stepped
    obtain ⟨may, allowed⟩ := acks index frame sent rfl reported
    exact ackedStream_maintains maintains allowed holds may acked
  | lost index =>
    obtain ⟨⟨frame, sent⟩, reported, stepped⟩ := Option.bind_eq_some_iff.mp stepped
    obtain ⟨conn, lost, stepped⟩ := Option.bind_eq_some_iff.mp stepped
    cases stepped
    obtain ⟨sends, allowed⟩ := loses index frame sent rfl reported
    exact lostStream_maintains maintains allowed holds sends lost

theorem step_exists (stepped : outbound.step event = some after) : ∃ call, outbound.conn.step call = some after.conn ∧
      ((∃ left, event = .send left ∧ call = .sendStream left) ∨ ∀ left, call ≠ .sendStream left) := by
  cases event with
  | call call =>
    rw [Outbound.step] at stepped
    split at stepped
    · rename_i admitted
      obtain ⟨conn, moved, rfl⟩ := Option.map_eq_some_iff.mp stepped
      refine ⟨call, moved, .inr ?_⟩
      rintro left rfl
      cases admitted
    · cases stepped
  | send left =>
    obtain ⟨⟨conn, header⟩, sending, rfl⟩ := Option.map_eq_some_iff.mp stepped
    exact ⟨.sendStream left, by rw [Connection.step, sending]; rfl, .inl ⟨left, rfl, rfl⟩⟩
  | acked index =>
    obtain ⟨⟨frame, sent⟩, reported, stepped⟩ := Option.bind_eq_some_iff.mp stepped
    obtain ⟨conn, acked, stepped⟩ := Option.bind_eq_some_iff.mp stepped
    cases stepped
    exact ⟨.ackedStream frame.streamId frame.offset frame.length, acked, .inr fun _ other => by cases other⟩
  | lost index =>
    obtain ⟨⟨frame, sent⟩, reported, stepped⟩ := Option.bind_eq_some_iff.mp stepped
    obtain ⟨conn, lost, stepped⟩ := Option.bind_eq_some_iff.mp stepped
    cases stepped
    exact ⟨.lostStream frame, lost, .inr fun _ other => by cases other⟩

theorem step_small (small : outbound.conn.peerTransportParams.Small) (stepped : outbound.step event = some after) :
    after.conn.peerTransportParams.Small := by
  cases event with
  | call call =>
    rw [Outbound.step] at stepped
    split at stepped
    · rename_i admitted
      obtain ⟨conn, moved, rfl⟩ := Option.map_eq_some_iff.mp stepped
      exact Connection.step_small moved (Bool.and_eq_true_iff.mp admitted).2 small
    · cases stepped
  | send left =>
    obtain ⟨⟨conn, header⟩, sending, rfl⟩ := Option.map_eq_some_iff.mp stepped
    rw [(sendStream_carries sending).1]
    exact small
  | acked index =>
    obtain ⟨⟨frame, sent⟩, reported, stepped⟩ := Option.bind_eq_some_iff.mp stepped
    obtain ⟨conn, acked, stepped⟩ := Option.bind_eq_some_iff.mp stepped
    cases stepped
    rcases ackedStream_spec acked with ⟨_, rfl⟩ | ⟨_, _, _, _, _, frame⟩
    · exact small
    · rw [frame]
      exact small
  | lost index =>
    obtain ⟨⟨frame, sent⟩, reported, stepped⟩ := Option.bind_eq_some_iff.mp stepped
    obtain ⟨conn, lost, stepped⟩ := Option.bind_eq_some_iff.mp stepped
    cases stepped
    rcases lostStream_spec lost with rfl | ⟨_, _, _, _, _, _, frame⟩
    · exact small
    · rw [frame]
      exact small

theorem changes_regular {call : Call} {kind : Stream.Kind} (uncut : Outbound.Event.cuts (.call call) ≠ some id)
    (plain : call.plain = true) (changes : call.changes = some (kind, id)) : Regular kind ∧ Idles kind := by
  have whole : kind ≠ .cut := by
    rintro rfl
    exact uncut (by rw [Outbound.Event.cuts, changes])
  cases call with
  | maxStreamData streamId limit =>
    cases changes
    exact ⟨show limit < 2 ^ 62 from of_decide_eq_true plain, trivial⟩
  | streamShutdown streamId direction err cwinAvailable =>
    cases changes
    cases direction with
    | read => exact ⟨trivial, trivial⟩
    | write => exact absurd rfl whole
  | stopSending streamId errorCode =>
    cases changes
    exact absurd rfl whole
  | stream | resetStream | streamRecv | streamSend | streamSendZc =>
    cases changes
    exact ⟨trivial, trivial⟩
  | _ => cases changes

end Step

section Careful

/-- The frame ends the stream. -/
def IsFin (id : Nat) (frame : StreamHeader) : Prop := frame.streamId = id ∧ frame.fin = true

instance (id : Nat) : DecidablePred (IsFin id) := fun _ => inferInstanceAs (Decidable (_ ∧ _))

/-- Accepting `len` bytes and the FIN leaves something that will be sent. -/
def Ending (conn : Connection) (id len : Nat) : Prop :=
  match conn.streams.get id with
  | none => len = 0
  | some stream => stream.send.finOff ≠ none ∨ stream.send.TailUnread ∨
      stream.send.offFront = stream.send.off ∧ (len = 0 ∨ stream.priorityKey ∈ conn.streams.flushable)

instance (conn : Connection) (id len : Nat) : Decidable (Ending conn id len) :=
  match found : conn.streams.get id with
  | none => decidable_of_iff (len = 0) (by rw [Ending, found])
  | some stream =>
    decidable_of_iff (stream.send.finOff ≠ none ∨ stream.send.TailUnread ∨
      stream.send.offFront = stream.send.off ∧ (len = 0 ∨ stream.priorityKey ∈ conn.streams.flushable))
      (by rw [Ending, found])

/-- The loss of the frame brings back bytes, or leaves the FIN to be sent. -/
def Recovers (conn : Connection) (frame : StreamHeader) (stream : Stream) : Prop :=
  stream.send.Restores frame.offset frame.length ∨ stream.send.Resting frame.offset frame.length ∧
    (frame.length = 0 ∧ frame.fin = true ∨ stream.priorityKey ∈ conn.streams.flushable)

instance (conn : Connection) (frame : StreamHeader) : DecidablePred (Recovers conn frame) :=
  fun _ => inferInstanceAs (Decidable (_ ∨ _ ∧ (_ ∧ _ ∨ _)))

/-- The call neither collects the stream too early nor ends it without anything left to send. -/
def CarefulCall (id : Nat) (outbound : Outbound) : Call → Prop
  | .streamRecv other _ => other = id → outbound.sent.Holds (IsFin id) ∨
      ∀ stream ∈ outbound.conn.streams.get id, stream.send.isComplete = false
  | .streamSend other buf fin => other = id → fin = true → buf = [] → Ending outbound.conn id 0
  | .streamSendZc other buf limit fin => other = id → fin = true → buf = [] ∨ limit = some 0 →
      Ending outbound.conn id buf.length
  | _ => True

instance (id : Nat) (outbound : Outbound) (call : Call) : Decidable (outbound.CarefulCall id call) := by
  rcases call with ⟨⟩
  case streamRecv => exact inferInstanceAs (Decidable (_ → _ ∨ ∀ _ ∈ _, _))
  case streamSend => exact inferInstanceAs (Decidable (_ → _ → _ → _))
  case streamSendZc => exact inferInstanceAs (Decidable (_ → _ → _ → _))
  all_goals exact .isTrue trivial

/-- The event does not lose the FIN of the stream. -/
def Careful (id : Nat) (outbound : Outbound) : Outbound.Event → Prop
  | .call call => outbound.CarefulCall id call
  | .send left =>
    maxStreamOverhead < left → FitsHead outbound.conn.streams.get left outbound.conn.streams.flushable
  | .acked index => ∀ report ∈ outbound.sent.report index .acked, report.1.streamId = id →
      report.2.Holds (IsFin id) ∨
        ∀ stream ∈ outbound.conn.streams.get id, ¬ stream.send.Completes report.1.offset report.1.length
  | .lost index => ∀ report ∈ outbound.sent.report index .lost, report.1.streamId = id →
      report.2.Holds (IsFin id) ∨ ∃ stream ∈ outbound.conn.streams.get id,
        stream.send.finOff = none ∨ Recovers outbound.conn report.1 stream

instance (id : Nat) (outbound : Outbound) : ∀ event, Decidable (outbound.Careful id event)
  | .call call => inferInstanceAs (Decidable (outbound.CarefulCall id call))
  | .send _ => inferInstanceAs (Decidable (_ → _))
  | .acked _ => inferInstanceAs (Decidable (∀ _ ∈ _, _ → _ ∨ ∀ _ ∈ _, ¬ _))
  | .lost _ => inferInstanceAs (Decidable (∀ _ ∈ _, _ → _ ∨ ∃ _ ∈ _, _ ∨ _))

end Careful

section Sound

/-- The stream is one to send on, and the frames in flight lie within what its buffer emitted. -/
structure Sound (id : Nat) (outbound : Outbound) : Prop where
  sends : maySend id outbound.conn.isServer = true
  small : outbound.conn.peerTransportParams.Small
  placed : outbound.conn.AllPlaced
  queued : outbound.conn.streams.Queued
  sided : outbound.conn.streams.At id (Sided outbound.conn.isServer id)
  ordered : outbound.conn.streams.At id Ordered
  frames : ∀ entry ∈ outbound.sent, entry.1.streamId = id → outbound.conn.streams.Follows id (FrameWithin entry.1)

theorem within_of_carries {streams next : StreamMap} {header : StreamHeader} {old : Stream} {send : SendBuf}
    {outLen : Nat} {out : List UInt8} (ordered : streams.At header.streamId Ordered)
    (carries : Carries streams header next old send outLen out) :
    next.Follows header.streamId (FrameWithin header) := by
  have current : next.get header.streamId = some { old with send } := by
    rw [StreamMap.get, carries.put, if_pos rfl]
  refine ⟨.inl (by rw [current]; rfl), ?_⟩
  intro stream found
  cases current.symm.trans found
  obtain ⟨bytes, valid⟩ := ordered old carries.found
  obtain ⟨_, _, _, wrote, _, emitted⟩ := emit_spec valid outLen
  cases wrote.symm.trans carries.emitted
  refine ⟨?_, fun isFin => ?_⟩
  · rw [carries.offset, carries.length]
    show _ ≤ send.off
    rw [emitted.off]
    exact emitted.end_le
  · have known := emitted.fin_iff.mp isFin
    have reaches := valid.finOff_eq _ known
    rw [carries.offset, carries.length]
    show send.finOff = some send.off ∧ _ = send.off
    rw [emitted.finOff, emitted.off, known, reaches]
    exact ⟨rfl, rfl⟩

section

variable (sound : outbound.Sound id) (uncut : event.cuts ≠ some id) (stepped : outbound.step event = some after)

include sound uncut stepped

theorem Sound.ordered_step : after.conn.streams.At id Ordered := by
  by_cases acks : ∃ index frame sent, event = .acked index ∧
      outbound.sent.report index .acked = some (frame, sent) ∧ frame.streamId = id
  · obtain ⟨index, frame, sent, rfl, reported, rfl⟩ := acks
    obtain ⟨⟨frame, sent⟩, again, stepped⟩ := Option.bind_eq_some_iff.mp stepped
    cases reported.symm.trans again
    obtain ⟨conn, acked, stepped⟩ := Option.bind_eq_some_iff.mp stepped
    cases stepped
    obtain ⟨entry, member, rfl⟩ := Ledger.mem_of_report reported
    rcases ackedStream_spec acked with ⟨_, rfl⟩ | ⟨old, send, found, dropped, left, _⟩
    · exact sound.ordered
    · obtain ⟨bytes, valid⟩ := sound.ordered old found
      have within := ((sound.frames entry member rfl).held old found).sent
      obtain ⟨_, wrote, kept, _⟩ := ackAndDrop_spec valid within
      cases wrote.symm.trans dropped
      intro stream known
      cases left with
      | kept put _ =>
        rw [StreamMap.get, put, if_pos rfl] at known
        cases known
        exact ⟨bytes, kept⟩
      | collected _ gone _ =>
        rw [StreamMap.get, gone, if_pos rfl] at known
        cases known
  · refine step_maintains (ordered_maintains _ id) (at_unlinks id Ordered) ?_ (fun _ _ _ _ => trivial) ?_
      (fun _ _ _ _ _ => ⟨trivial, fun _ => trivial⟩) sound.ordered stepped
    · rintro call rfl
      refine ⟨fun _ _ => trivial, sound.small, fun _ _ => trivial, ?_⟩
      rintro kind other changes rfl
      refine (changes_regular uncut ?_ changes).1
      rw [Outbound.step] at stepped
      split at stepped
      · rename_i admitted
        exact (Bool.and_eq_true_iff.mp admitted).2
      · cases stepped
    · intro index frame sent is reported
      exact ⟨trivial, fun same => absurd ⟨index, frame, sent, is, reported, same⟩ acks⟩

theorem Sound.frames_step :
    ∀ entry ∈ after.sent, entry.1.streamId = id → after.conn.streams.Follows id (FrameWithin entry.1) := by
  have kept : ∀ entry ∈ outbound.sent, entry.1.streamId = id → after.conn.streams.Follows id (FrameWithin entry.1) := by
    rintro entry member rfl
    refine step_maintains (within_maintains _ entry.1) (follows_unlinks _ _) ?_ (fun _ _ _ _ => nofun)
      (fun _ _ _ _ _ => ⟨trivial, fun _ => nofun⟩) (fun _ _ _ _ _ => ⟨trivial, fun _ => nofun⟩)
      (sound.frames entry member rfl) stepped
    rintro call rfl
    refine ⟨fun _ _ => trivial, trivial, fun _ _ => trivial, ?_⟩
    rintro kind other changes rfl rfl
    exact uncut (by rw [Outbound.Event.cuts, changes])
  cases event with
  | call call =>
    rw [Outbound.step] at stepped
    split at stepped
    · obtain ⟨conn, _, rfl⟩ := Option.map_eq_some_iff.mp stepped
      exact kept
    · cases stepped
  | send left =>
    obtain ⟨⟨conn, header⟩, sending, rfl⟩ := Option.map_eq_some_iff.mp stepped
    rcases (sendStream_carries sending).2 with ⟨rfl, _⟩ | ⟨header, old, send, outLen, out, rfl, carries⟩
    · exact kept
    · intro entry member same
      rcases List.mem_append.mp member with before | new
      · exact kept entry before same
      · cases List.mem_singleton.mp new
        cases same
        exact within_of_carries sound.ordered carries
  | acked index | lost index =>
    obtain ⟨⟨frame, sent⟩, reported, stepped⟩ := Option.bind_eq_some_iff.mp stepped
    obtain ⟨conn, _, stepped⟩ := Option.bind_eq_some_iff.mp stepped
    cases stepped
    intro entry member same
    obtain ⟨earlier, known, equal⟩ := Ledger.item_mem_of_report reported member
    rw [← equal] at same ⊢
    exact kept earlier known same

end

theorem step_isServer (stepped : outbound.step event = some after) : after.conn.isServer = outbound.conn.isServer := by
  obtain ⟨call, moved, _⟩ := step_exists stepped
  exact Connection.step_isServer moved

theorem Sound.step (sound : outbound.Sound id) (careful : outbound.Careful id event) (uncut : event.cuts ≠ some id)
    (stepped : outbound.step event = some after) : after.Sound id where
  sends := by
    rw [step_isServer stepped]
    exact sound.sends
  small := step_small sound.small stepped
  placed := by
    obtain ⟨call, moved, _⟩ := step_exists stepped
    exact sound.placed.step moved
  queued := by
    obtain ⟨call, moved, sending⟩ := step_exists stepped
    refine step_queued sound.queued sound.placed ?_ moved
    rcases sending with ⟨left, rfl, rfl⟩ | other
    · exact fun room => (careful room).first
    · cases call with
      | sendStream left => exact absurd rfl (other left)
      | _ => trivial
  sided := by
    rw [step_isServer stepped]
    exact step_maintains (sided_maintains _ id) (at_unlinks id _) (fun call _ => covers_all _ call)
      (fun _ _ _ => trivial) (fun _ _ _ _ _ => ⟨trivial, trivial⟩) (fun _ _ _ _ _ => ⟨trivial, trivial⟩)
      sound.sided stepped
  ordered := sound.ordered_step uncut stepped
  frames := sound.frames_step uncut stepped

theorem start_sound (config : Config) (scid : List UInt8) (localAddr peerAddr : SocketAddr)
    (addressVerified : Bool) {isServer : Bool} (sends : maySend id isServer = true) :
    (start config scid localAddr peerAddr addressVerified isServer).Sound id where
  sends := sends
  small := show TransportParams.default.Small by decide
  placed := History.start_allPlaced config scid localAddr peerAddr addressVerified isServer
  queued := (History.start_served config scid localAddr peerAddr addressVerified isServer).queued
  sided _ found := by cases found
  ordered _ found := by cases found
  frames _ member := absurd member List.not_mem_nil

end Sound

section Kept

variable {conn : Connection} {frame : StreamHeader} {old : Stream}

/-- The FIN is in flight or waits to be sent. -/
def Kept (id : Nat) (outbound : Outbound) : Prop := outbound.sent.Holds (IsFin id) ∨ outbound.conn.streams.Pending id

theorem pending_of_tail {streams : StreamMap} {stream : Stream} {bytes : List UInt8} (queued : streams.Queued)
    (found : streams.get id = some stream) (valid : Valid bytes stream.send)
    (final : stream.send.finOff = some stream.send.off) (tail : stream.send.TailUnread) : streams.Pending id := by
  have running : stream.send.isStopped = false := by rw [isStopped, valid.running]; rfl
  exact ⟨queued.keyed, stream, found,
    queued.waiting id stream found running (Stream.isFlushable_of_tail valid tail), final, .inr tail⟩

section

variable (sound : outbound.Sound id)

include sound

section

variable (queued : conn.streams.Queued)

include queued

theorem lost_pending (same : frame.streamId = id)
    (found : outbound.conn.streams.get id = some old) (final : old.send.finOff = some old.send.off)
    (recovers : Recovers outbound.conn frame old) (lost : outbound.conn.lostStream frame = some conn) :
    conn.streams.Pending id := by
  subst same
  obtain ⟨bytes, valid⟩ := sound.ordered old found
  rw [lostStream, found] at lost
  obtain ⟨send, rewound, lost⟩ := Option.bind_eq_some_iff.mp lost
  obtain ⟨_, wrote, kept, requeued⟩ := retransmit_spec valid frame.offset frame.length
  cases wrote.symm.trans rewound
  have ended : send.finOff = some send.off := by
    rw [requeued.finOff, requeued.off_eq]
    exact final
  have idle : old.send.offFront = old.send.off → old.isFlushable = false := by
    intro reached
    rw [Stream.isFlushable, offBack, reached, decide_eq_false (Nat.lt_irrefl _), Bool.and_false, Bool.false_and]
  cases lost
  have current : (outbound.conn.streams.set frame.streamId { old with send }).get frame.streamId =
      some { old with send } := get_set ..
  rcases recovers with restores | ⟨resting, waits⟩
  · have tail := restores.tail requeued
    refine @pending_of_tail _ _ { old with send } _ queued ?_ kept ended tail
    split
    · exact current
    · exact current
  · refine ⟨queued.keyed, { old with send }, ?_, ?_, ended, .inl (resting.reached valid requeued)⟩
    · split
      · exact current
      · exact current
    · split
      · exact StreamQueue.mem_insert.mpr (.inl rfl)
      · rename_i skipped
        rcases waits with ⟨empty, isFin⟩ | linked
        · rw [idle resting.1, empty, isFin] at skipped
          simp at skipped
        · exact linked

theorem acked_pending
    (pending : outbound.conn.streams.Pending id) {entry : StreamHeader × Fate} (member : entry ∈ outbound.sent)
    (same : entry.1.streamId = id)
    (missing : ∀ stream ∈ outbound.conn.streams.get id, ¬ stream.send.Completes entry.1.offset entry.1.length)
    (acked : outbound.conn.ackedStream id entry.1.offset entry.1.length = some conn) : conn.streams.Pending id := by
  rcases ackedStream_spec acked with ⟨_, rfl⟩ | ⟨old, send, found, dropped, left, _⟩
  · exact pending
  obtain ⟨stream, present, linked, finishing⟩ := pending.waits
  cases found.symm.trans present
  obtain ⟨bytes, valid⟩ := sound.ordered old found
  have within := ((sound.frames entry member same).held old found).sent
  obtain ⟨_, wrote, kept, acknowledged⟩ := ackAndDrop_spec valid within
  cases wrote.symm.trans dropped
  cases left with
  | kept put flushable =>
    refine ⟨queued.keyed, { old with send }, ?_, ?_, finishing.ack valid acknowledged⟩
    · rw [StreamMap.get, put, if_pos rfl]
    · rw [flushable]
      exact linked
  | collected complete _ _ =>
    have sided := sound.sided old found
    have same : Sided outbound.conn.isServer id { old with send } := ⟨sided.bidi, sided.locality⟩
    rw [same.incomplete sound.sends (acknowledged.incomplete kept (missing old found))] at complete
    cases complete

theorem read_pending (pending : outbound.conn.streams.Pending id)
    (missing : ∀ stream ∈ outbound.conn.streams.get id, stream.send.isComplete = false) {cap : Nat}
    {result : Except Error (List UInt8 × Bool)}
    (received : outbound.conn.streamRecv id cap = some (conn, result)) : conn.streams.Pending id := by
  rcases streamRecv_spec received with rfl | ⟨old, recv, found, _, _, left, _, _, _⟩
  · exact pending
  obtain ⟨stream, present, linked, finishing⟩ := pending.waits
  cases found.symm.trans present
  cases left with
  | kept put flushable =>
    refine ⟨queued.keyed, { old with recv }, ?_, ?_, finishing⟩
    · rw [StreamMap.get, put, if_pos rfl]
    · rw [flushable]
      exact linked
  | collected complete _ _ =>
    have sided := sound.sided old found
    have same : Sided outbound.conn.isServer id { old with recv } := ⟨sided.bidi, sided.locality⟩
    rw [same.incomplete sound.sends (missing old found)] at complete
    cases complete

theorem send_kept (pending : outbound.conn.streams.Pending id) {left : Nat} {header : Option StreamHeader}
    (fits : maxStreamOverhead < left → FitsHead outbound.conn.streams.get left outbound.conn.streams.flushable)
    (sending : outbound.conn.sendStream left = some (conn, header)) :
    Kept id ⟨conn, header.elim outbound.sent outbound.sent.send⟩ := by
  obtain ⟨stream, found, linked, finishing⟩ := pending.waits
  obtain ⟨bytes, valid⟩ := sound.ordered stream found
  have here := pending.keyed id stream found
  have stays : stream.priorityKey ∈ conn.streams.flushable ∨ ∃ made, header = some made ∧ made.streamId = id := by
    rcases sendStream_spec sending with rfl | ⟨room, flushed, _⟩
    · exact .inl linked
    · have running : stream.send.isStopped = false := by rw [isStopped, valid.running]; rfl
      have stayed := flushStreams_stays sound.queued (fits room) flushed linked (by rw [here]; exact found) running
      rwa [here] at stayed
  rcases (sendStream_carries sending).2 with ⟨rfl, same⟩ | ⟨made, old, send, outLen, out, rfl, carries⟩
  · refine .inr ⟨queued.keyed, stream, ?_, ?_, finishing⟩
    · rw [StreamMap.get, same]
      exact found
    · rcases stays with kept | ⟨_, none, _⟩
      · exact kept
      · cases none
  · by_cases own : made.streamId = id
    · subst own
      cases found.symm.trans carries.found
      obtain ⟨_, _, _, wrote, kept, emitted⟩ := emit_spec valid outLen
      cases wrote.symm.trans carries.emitted
      rcases finishing.emit emitted with isFin | tail
      · exact .inl (Ledger.holds_send ⟨rfl, isFin⟩)
      · have current : conn.streams.get made.streamId = some { stream with send } := by
          rw [StreamMap.get, carries.put, if_pos rfl]
        refine .inr (pending_of_tail queued current kept ?_ tail)
        show send.finOff = some send.off
        rw [emitted.finOff, emitted.off]
        exact finishing.final
    · refine .inr ⟨queued.keyed, stream, ?_, ?_, finishing⟩
      · rw [StreamMap.get, carries.put, if_neg (Ne.symm own)]
        exact found
      · rcases stays with kept | ⟨_, is, same⟩
        · exact kept
        · cases is
          exact absurd same own

end

end

theorem step_of_carried (carried : outbound.sent.Holds (IsFin id)) (sound : outbound.Sound id)
    (careful : outbound.Careful id event) (queued : after.conn.streams.Queued)
    (stepped : outbound.step event = some after) : after.Kept id := by
  cases event with
  | call call =>
    rw [Outbound.step] at stepped
    split at stepped
    · obtain ⟨conn, moved, rfl⟩ := Option.map_eq_some_iff.mp stepped
      exact .inl carried
    · cases stepped
  | send left =>
    obtain ⟨⟨conn, header⟩, sending, rfl⟩ := Option.map_eq_some_iff.mp stepped
    cases header with
    | none => exact .inl carried
    | some header => exact .inl (carried.send header)
  | acked index =>
    obtain ⟨⟨frame, sent⟩, reported, stepped⟩ := Option.bind_eq_some_iff.mp stepped
    obtain ⟨conn, _, stepped⟩ := Option.bind_eq_some_iff.mp stepped
    cases stepped
    exact .inl (carried.report reported fun _ => nofun)
  | lost index =>
    obtain ⟨⟨frame, sent⟩, reported, stepped⟩ := Option.bind_eq_some_iff.mp stepped
    obtain ⟨conn, lost, stepped⟩ := Option.bind_eq_some_iff.mp stepped
    cases stepped
    by_cases isFin : IsFin id frame
    · rcases careful _ reported isFin.1 with holds | ⟨old, found, recovers⟩
      · exact .inl holds
      · obtain ⟨entry, member, rfl⟩ := Ledger.mem_of_report reported
        have final := (((sound.frames entry member isFin.1).held old found).ends isFin.2).1
        rcases recovers with unended | recovers
        · cases final.symm.trans unended
        · exact .inr (lost_pending sound queued isFin.1 found final recovers lost)
    · exact .inl (carried.report reported fun is => absurd is isFin)

theorem step_of_pending (pending : outbound.conn.streams.Pending id) (sound : outbound.Sound id)
    (careful : outbound.Careful id event) (uncut : event.cuts ≠ some id) (queued : after.conn.streams.Queued)
    (stepped : outbound.step event = some after) : after.Kept id := by
  cases event with
  | call call =>
    rw [Outbound.step] at stepped
    split at stepped
    swap
    · cases stepped
    rename_i admitted
    obtain ⟨direct, plain⟩ := Bool.and_eq_true_iff.mp admitted
    obtain ⟨conn, moved, rfl⟩ := Option.map_eq_some_iff.mp stepped
    by_cases reads : ∃ cap, call = .streamRecv id cap
    · obtain ⟨cap, rfl⟩ := reads
      obtain ⟨result, received⟩ := called_spec moved
      rcases careful rfl with holds | missing
      · exact .inl holds
      · exact .inr (read_pending sound queued pending missing received)
    · right
      refine Connection.step_maintains (pending_maintains _ id) ?_ pending direct moved
      refine ⟨fun _ _ => trivial, trivial, ?_, ?_⟩
      · rintro other collects rfl
        cases call with
        | streamRecv streamId cap =>
          cases collects
          exact reads ⟨cap, rfl⟩
        | ackedStream | ackedResetStream => cases direct
        | _ => cases collects
      · rintro kind other changes rfl
        exact (changes_regular uncut plain changes).2
  | send left =>
    obtain ⟨⟨conn, header⟩, sending, rfl⟩ := Option.map_eq_some_iff.mp stepped
    exact send_kept sound queued pending careful sending
  | acked index =>
    obtain ⟨⟨frame, sent⟩, reported, stepped⟩ := Option.bind_eq_some_iff.mp stepped
    obtain ⟨conn, acked, stepped⟩ := Option.bind_eq_some_iff.mp stepped
    cases stepped
    by_cases same : frame.streamId = id
    · rcases careful _ reported same with holds | missing
      · exact .inl holds
      · obtain ⟨entry, member, rfl⟩ := Ledger.mem_of_report reported
        rw [same] at acked
        exact .inr (acked_pending sound queued pending member same missing acked)
    · exact .inr (ackedStream_maintains (pending_maintains _ id) (fun equal => absurd equal same) pending same acked)
  | lost index =>
    obtain ⟨⟨frame, sent⟩, reported, stepped⟩ := Option.bind_eq_some_iff.mp stepped
    obtain ⟨conn, lost, stepped⟩ := Option.bind_eq_some_iff.mp stepped
    cases stepped
    by_cases same : frame.streamId = id
    · rcases careful _ reported same with holds | ⟨old, found, recovers⟩
      · exact .inl holds
      · obtain ⟨stream, present, _, finishing⟩ := pending.waits
        cases present.symm.trans found
        rcases recovers with unended | recovers
        · cases finishing.final.symm.trans unended
        · exact .inr (lost_pending sound queued same found finishing.final recovers lost)
    · exact .inr (lostStream_maintains (pending_maintains _ id) (fun equal => absurd equal same) pending
        trivial lost)

theorem Kept.step (kept : outbound.Kept id) (sound : outbound.Sound id) (careful : outbound.Careful id event)
    (uncut : event.cuts ≠ some id) (stepped : outbound.step event = some after) : after.Kept id := by
  have queued := (sound.step careful uncut stepped).queued
  rcases kept with carried | pending
  · exact step_of_carried carried sound careful queued stepped
  · exact step_of_pending pending sound careful uncut queued stepped

end Kept

section Accepted

variable {conn : Connection} {Result : Type} {len : Nat} {fin : Bool} {limit : Nat → Nat}
  {writeFn : SendBuf → Nat → Bool → Option (SendBuf × Except Error (Nat × Result))}

/-- The application has not finished the stream. -/
def Unended (id : Nat) (streams : StreamMap) : Prop := streams.At id fun stream => stream.send.finOff = none

/-- What a function writes of a buffer, `limit cap` bytes of which it is asked to take. -/
structure Stores (limit : Nat → Nat)
    (writeFn : SendBuf → Nat → Bool → Option (SendBuf × Except Error (Nat × Result))) : Prop where
  fails {send cap fin written error} : writeFn send cap fin = some (written, .error error) → written = send
  stores {bytes send cap fin written output} : Valid bytes send → writeFn send cap fin = some (written, .ok output) →
    ∃ taken, Valid (bytes ++ taken) written ∧ Appended send (limit cap) fin taken written

theorem write_stores (buf : List UInt8) : Stores (min · buf.length) fun send cap fin => do
      let (send, written) ← send.write (buf.take cap) fin
      return (send, written.map fun sent => (sent, sent)) where
  fails called := by
    obtain ⟨⟨written, result⟩, writing, same⟩ := Option.bind_eq_some_iff.mp called
    cases result with
    | ok count => cases same
    | error error =>
      cases same
      exact (SendBuf.write_extends writing).failed _ rfl
  stores {bytes send cap fin written output} valid called := by
    obtain ⟨⟨written, result⟩, writing, same⟩ := Option.bind_eq_some_iff.mp called
    obtain ⟨_, _, wrote, outcome⟩ := write_spec valid (buf.take cap) fin
    cases wrote.symm.trans writing
    rcases outcome with ⟨_, rfl, _⟩ | ⟨count, rfl, stored, appended⟩
    · cases same
    · cases same
      rw [List.length_take] at appended
      exact ⟨_, stored, appended⟩

theorem append_stores (buf : List UInt8) (most : Option Nat) :
    Stores (fun cap => min (min (most.getD usizeMax) cap) buf.length) fun send cap fin => do
      let (send, written) ← send.appendBuf buf (min (most.getD usizeMax) cap) fin
      return (send, written.map fun (sent, remaining) => (sent, (sent, remaining))) where
  fails called := by
    obtain ⟨⟨written, result⟩, writing, same⟩ := Option.bind_eq_some_iff.mp called
    cases result with
    | ok output => cases same
    | error error =>
      cases same
      exact (SendBuf.appendBuf_extends writing).failed _ rfl
  stores {bytes send cap fin written output} valid called := by
    obtain ⟨⟨written, result⟩, writing, same⟩ := Option.bind_eq_some_iff.mp called
    obtain ⟨_, _, wrote, outcome⟩ := appendBuf_spec valid buf (min (most.getD usizeMax) cap) fin
    cases wrote.symm.trans writing
    rcases outcome with ⟨_, rfl, _⟩ | ⟨count, remainder, rfl, stored, appended⟩
    · cases same
    · cases same
      exact ⟨_, stored, appended⟩

theorem unended_put {streams next : StreamMap} {new : Stream} (put : Put streams.streams id new next.streams)
    (unended : new.send.finOff = none) : Unended id next := by
  intro stream found
  rw [StreamMap.get, put, if_pos rfl] at found
  cases found
  exact unended

theorem Origin.unended {old : Stream} (origin : conn.Origin id old) (unended : Unended id conn.streams) :
    old.send.finOff = none := by
  cases origin with
  | live found => exact unended old found
  | created _ _ fresh =>
    obtain ⟨_, _, _, rfl, _⟩ := fresh
    rfl

theorem Origin.ordered {old : Stream} (origin : conn.Origin id old) (ordered : conn.streams.At id Ordered)
    (small : conn.peerTransportParams.Small) : Ordered old := by
  cases origin with
  | live found => exact ordered old found
  | created _ _ fresh =>
    obtain ⟨maxRxData, maxTxData, window, rfl, limits⟩ := fresh
    refine ⟨[], new_valid ?_⟩
    rw [show maxTxData = (maxRxData, maxTxData).2 from rfl, limits]
    exact initialLimits_lt small

theorem wrote_pending {next : Connection} (wrote : conn.Wrote next id len fin writeFn) (stores : Stores limit writeFn)
    (unended : Unended id conn.streams) (ordered : conn.streams.At id Ordered)
    (small : conn.peerTransportParams.Small) (queued : next.streams.Queued)
    (ending : fin = true → limit len = 0 → Ending conn id len) : Unended id next.streams ∨ next.streams.Pending id := by
  cases wrote with
  | refused frame =>
    left
    rw [frame]
    exact unended
  | waiting old touched _ _ => exact .inl (unended_put touched.put (Origin.unended touched.origin unended))
  | failed old send error called touched _ _ =>
    left
    refine unended_put touched.put ?_
    rw [stores.fails called]
    exact Origin.unended touched.origin unended
  | wrote old send sent result blockedAt called touched flushable _ _ =>
    obtain ⟨bytes, valid⟩ := Origin.ordered touched.origin ordered small
    obtain ⟨taken, kept, appended⟩ := stores.stores valid called
    have current : next.streams.get id = some { old with send := { send with blockedAt } } := by
      rw [StreamMap.get, touched.put, if_pos rfl]
      rfl
    rcases appended.finOff with same | ⟨isFin, whole, final⟩
    · exact .inl (unended_put touched.put (same.trans (Origin.unended touched.origin unended)))
    right
    by_cases tail : send.TailUnread
    · exact pending_of_tail queued current (valid_blockedAt kept blockedAt) final tail
    obtain ⟨fitting, isFin⟩ := Bool.and_eq_true_iff.mp isFin
    have fitting : ¬ conn.txCap < len := by simpa using fitting
    have nothing : taken = [] := Decidable.byContradiction fun nonempty => tail (appended.tail nonempty)
    subst nothing
    have asked : limit len = 0 := by
      rw [← Nat.min_eq_right (Nat.not_lt.mp fitting)]
      exact whole.symm
    -- Without any data, the end waits only if nothing else does.
    have waits : old.send.offFront = old.send.off ∧ (len = 0 ∨ old.priorityKey ∈ conn.streams.flushable) := by
      have admitted := ending isFin asked
      rw [Ending] at admitted
      cases touched.origin with
      | live found =>
        rw [found] at admitted
        rcases admitted with ended | last | reached
        · exact absurd (unended old found) ended
        · exact absurd (appended.tail_nil last) tail
        · exact reached
      | created absent _ fresh =>
        rw [absent] at admitted
        obtain ⟨_, _, _, rfl, _⟩ := fresh
        exact ⟨rfl, .inl admitted⟩
    have idle : old.isFlushable = false := by
      rw [Stream.isFlushable, offBack, waits.1, decide_eq_false (Nat.lt_irrefl _), Bool.and_false, Bool.false_and]
    refine ⟨queued.keyed, _, current, ?_, final, .inl (appended.reached_nil valid waits.1)⟩
    rw [flushable]
    split
    · exact StreamQueue.mem_insert.mpr (.inl rfl)
    · rename_i skipped
      rcases waits.2 with empty | linked
      · rw [idle, empty, isFin] at skipped
        simp at skipped
      · exact linked

theorem unended_step (unended : Unended id outbound.conn.streams) (sound : outbound.Sound id)
    (careful : outbound.Careful id event) (uncut : event.cuts ≠ some id)
    (stepped : outbound.step event = some after) : Unended id after.conn.streams ∨ after.Kept id := by
  have queued := (sound.step careful uncut stepped).queued
  by_cases writes : ∃ call, event = .call call ∧ call.changes = some (.write, id)
  · obtain ⟨call, rfl, changes⟩ := writes
    rw [Outbound.step] at stepped
    split at stepped
    swap
    · cases stepped
    obtain ⟨conn, moved, rfl⟩ := Option.map_eq_some_iff.mp stepped
    cases call with
    | streamSend streamId buf fin =>
      cases changes
      obtain ⟨result, sent⟩ := called_spec moved
      refine (wrote_pending (streamDoSend_spec sent) (write_stores buf) unended sound.ordered sound.small queued
        fun isFin nothing => ?_).imp_right .inr
      rw [Nat.min_self] at nothing
      rw [nothing]
      exact careful rfl isFin (List.length_eq_zero_iff.mp nothing)
    | streamSendZc streamId buf most fin =>
      cases changes
      obtain ⟨result, sent⟩ := called_spec moved
      refine (wrote_pending (streamDoSend_spec sent) (append_stores buf most) unended sound.ordered sound.small
        queued fun isFin nothing => careful rfl isFin ?_).imp_right .inr
      cases most with
      | none =>
        left
        have large : 0 < usizeMax := by decide
        rw [Option.getD_none] at nothing
        exact List.length_eq_zero_iff.mp (by omega)
      | some most =>
        rw [Option.getD_some] at nothing
        by_cases empty : buf = []
        · exact .inl empty
        · have positive := List.length_pos_of_ne_nil empty
          exact .inr (congrArg some (by omega))
    | streamShutdown streamId direction => cases direction <;> cases changes
    | _ => cases changes
  · left
    refine step_maintains (open_maintains _ id) (at_unlinks id _) ?_ (fun _ _ _ _ => ⟨nofun, nofun⟩)
      (fun _ _ _ _ _ => ⟨trivial, fun _ => ⟨nofun, nofun⟩⟩) (fun _ _ _ _ _ => ⟨trivial, fun _ => ⟨nofun, nofun⟩⟩)
      unended stepped
    rintro call rfl
    refine ⟨fun _ _ => trivial, trivial, fun _ _ => trivial, ?_⟩
    rintro kind other changes rfl
    constructor
    · rintro rfl
      exact uncut (by rw [Outbound.Event.cuts, changes])
    · rintro rfl
      exact writes ⟨call, rfl, changes⟩

/-- Once the stream is finished, its FIN is kept. -/
structure Watched (id : Nat) (outbound : Outbound) : Prop where
  sound : outbound.Sound id
  ended : Unended id outbound.conn.streams ∨ outbound.Kept id

/-- The stream is finished, and its FIN is kept. -/
structure Holding (id : Nat) (outbound : Outbound) : Prop where
  sound : outbound.Sound id
  kept : outbound.Kept id

end Accepted

/-- In a run of careful steps, the end of a stream that is neither reset nor stopped is not
lost once it was accepted: until it is acknowledged, it is in flight, or the stream is queued
and sending its data ends with it. -/
theorem fin_never_lost {config : Config} {scid : List UInt8} {localAddr peerAddr : SocketAddr}
    {addressVerified isServer : Bool} {earlier later : List Outbound.Event} {accepted : Outbound} {stream : Stream}
    (sends : maySend id isServer = true)
    (careful : machine.Guarded (Careful id) (start config scid localAddr peerAddr addressVerified isServer)
      (earlier ++ later))
    (uncut : ∀ event ∈ earlier ++ later, event.cuts ≠ some id)
    (started : machine.run (start config scid localAddr peerAddr addressVerified isServer) earlier = some accepted)
    (found : accepted.conn.streams.get id = some stream) (ended : stream.send.finOff ≠ none)
    (reached : machine.run accepted later = some after)
    (unacked : ∀ entry ∈ after.sent, IsFin id entry.1 → entry.2 ≠ .acked) :
    (∃ entry ∈ after.sent, IsFin id entry.1 ∧ entry.2 = .inFlight) ∨
      ∃ stream, after.conn.streams.get id = some stream ∧ stream.priorityKey ∈ after.conn.streams.flushable ∧
        ∀ rooms : List Nat, (∀ room ∈ rooms, 0 < room) → unreadLen stream.send.data < rooms.length →
          stream.Ends rooms := by
  obtain ⟨before, behind⟩ := Machine.guarded_append (careful.and_forall uncut)
  have watched : accepted.Watched id := machine.run_keeps_of_guarded
    (fun _ _ _ watched admitted stepped => ⟨watched.sound.step admitted.1 admitted.2 stepped,
      watched.ended.elim (fun unended => unended_step unended watched.sound admitted.1 admitted.2 stepped)
        fun kept => .inr (kept.step watched.sound admitted.1 admitted.2 stepped)⟩)
    ⟨start_sound config scid localAddr peerAddr addressVerified sends, .inl (fun _ found => by cases found)⟩
    before started
  have kept : accepted.Kept id := watched.ended.resolve_left fun unended => ended (unended stream found)
  have holding : after.Holding id := machine.run_keeps_of_guarded
    (fun _ _ _ holding admitted stepped => ⟨holding.sound.step admitted.1 admitted.2 stepped,
      holding.kept.step holding.sound admitted.1 admitted.2 stepped⟩)
    ⟨watched.sound, kept⟩ (behind accepted started) reached
  rcases holding.kept with ⟨entry, member, isFin, unlost⟩ | pending
  · left
    refine ⟨entry, member, isFin, ?_⟩
    cases fate : entry.2 with
    | inFlight => rfl
    | acked => exact absurd fate (unacked entry member isFin)
    | lost => exact absurd fate unlost
  · obtain ⟨stream, found, linked, finishing⟩ := pending.waits
    obtain ⟨bytes, valid⟩ := holding.sound.ordered stream found
    exact .inr ⟨stream, found, linked, fun rooms nonempty enough =>
      Stream.ends_of_finishing valid finishing nonempty enough⟩

/-- An empty frame with the end is lost, and the stream waits to send another one. -/
theorem fin_never_lost_empty :
    ∃ accepted stream after, machine.run (start History.smallConfig [1] ⟨[1], 1⟩ ⟨[2], 2⟩ false true)
        [.call (.peerTransportParams History.peerLimits 20), .call (.streamSend 1 [1, 2, 3] false), .send 100,
          .call (.streamSend 1 [] true)] = some accepted ∧
      accepted.conn.streams.get 1 = some stream ∧ stream.send.finOff ≠ none ∧
      machine.run accepted [.send 100, .lost 1] = some after ∧
      ((∃ entry ∈ after.sent, IsFin 1 entry.1 ∧ entry.2 = .inFlight) ∨
        ∃ stream, after.conn.streams.get 1 = some stream ∧ stream.priorityKey ∈ after.conn.streams.flushable ∧
          ∀ rooms : List Nat, (∀ room ∈ rooms, 0 < room) → unreadLen stream.send.data < rooms.length →
            stream.Ends rooms) := by
  have computed : ∃ accepted ∈ machine.run (start History.smallConfig [1] ⟨[1], 1⟩ ⟨[2], 2⟩ false true)
      [.call (.peerTransportParams History.peerLimits 20), .call (.streamSend 1 [1, 2, 3] false), .send 100,
        .call (.streamSend 1 [] true)], ∃ stream ∈ accepted.conn.streams.get 1, stream.send.finOff ≠ none ∧
          ∃ after ∈ machine.run accepted [.send 100, .lost 1],
            ∀ entry ∈ after.sent, IsFin 1 entry.1 → entry.2 ≠ .acked := by
    decide +kernel
  obtain ⟨accepted, started, stream, found, ended, after, reached, unacked⟩ := computed
  exact ⟨accepted, stream, after, started, found, ended, reached,
    fin_never_lost (by decide) (by decide +kernel) (by decide) started found ended reached unacked⟩

/-- The first of two data frames is lost, and so is the empty frame with the end. Only the
data is sent again. -/
theorem lost_fin_stays_lost : ∃ after stream, machine.run (start History.smallConfig [1] ⟨[1], 1⟩ ⟨[2], 2⟩ false true)
        [.call (.peerTransportParams History.peerLimits 20),
          .call (.streamSend 1 [1, 2, 3, 4, 5, 6, 7, 8, 9, 10] false), .send 13, .send 100,
          .call (.streamSend 1 [] true), .send 100, .lost 0, .lost 2, .send 100] = some after ∧
      after.conn.streams.get 1 = some stream ∧ stream.send.finOff = some 10 ∧
      (∀ entry ∈ after.sent, IsFin 1 entry.1 → entry.2 = .lost) ∧ after.conn.streams.flushable = [] := by
  refine exists_reached_next_of (·.conn.streams.get 1)
    (fun after stream => stream.send.finOff = some 10 ∧ (∀ entry ∈ after.sent, IsFin 1 entry.1 → entry.2 = .lost) ∧
      after.conn.streams.flushable = []) (by decide +kernel) fun after stream _ found shown => ⟨found, shown⟩

end Outbound

end Quiche.Connection
