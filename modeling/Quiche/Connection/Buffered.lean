import Mathlib.Data.Finset.Card
import Mathlib.Data.Finset.Union
import Quiche.Connection.Flight

namespace Quiche.Connection

open Data

variable {conn next : Connection} {call : Call} {id : Nat} {old new : Stream}

section Books

def Call.takes (conn : Connection) : Call → Option (Nat × Nat)
  | .streamSend streamId buf fin =>
    match conn.streamSend streamId buf fin with
    | some (_, .ok sent) => some (streamId, sent)
    | _ => none
  | .streamSendZc streamId buf len fin =>
    match conn.streamSendZc streamId buf len fin with
    | some (_, .ok (sent, _)) => some (streamId, sent)
    | _ => none
  | _ => none

def Call.discards : Call → Option Nat
  | .stopSending streamId _ => some streamId
  | .streamShutdown streamId .write _ _ => some streamId
  | _ => none

/-- A connection with its packets, how many bytes each stream accepted, and which of them, by stream
and offset, were neither acknowledged nor discarded. -/
structure Books where
  flight : Flight
  accepted : Nat → Nat
  unsettled : Finset (Nat × Nat)

namespace Books

def start (config : Config) (scid : List UInt8) (localAddr peerAddr : SocketAddr)
    (addressVerified isServer : Bool) : Books :=
  ⟨.start config scid localAddr peerAddr addressVerified isServer, fun _ => 0, ∅⟩

def stretch (streamId offset length : Nat) : Finset (Nat × Nat) :=
  (Finset.range length).image fun index => (streamId, offset + index)

def accept (books : Books) (streamId sent : Nat) : Books :=
  { books with
    accepted := fun other =>
      if other = streamId then books.accepted other + sent else books.accepted other
    unsettled := books.unsettled ∪ stretch streamId (books.accepted streamId) sent }

def discard (books : Books) (streamId : Nat) : Books :=
  { books with unsettled := books.unsettled.filter fun byte => byte.1 ≠ streamId }

def acknowledge (books : Books) (frame : StreamHeader) : Books :=
  { books with unsettled := books.unsettled \ stretch frame.streamId frame.offset frame.length }

def record (books : Books) : Flight.Event → Books
  | .call call =>
    match call.takes books.flight.conn, call.discards with
    | some (streamId, sent), _ => books.accept streamId sent
    | none, some streamId => books.discard streamId
    | none, none => books
  | .acked index =>
    match books.flight.sent.resolve index .acked with
    | some (frame, _) => books.acknowledge frame
    | none => books
  | .send _ | .lost _ | .probed _ => books

def step (books : Books) (event : Flight.Event) : Option Books :=
  (books.flight.step event).map fun flight => { books.record event with flight }

def machine : Machine Books Flight.Event := ⟨step⟩

/-- A frame of an open stream is reported as acknowledged while none of its bytes are settled, and a
stream is reset only when every byte it sent is settled. -/
def Settles (books : Books) : Flight.Event → Prop
  | .acked index => ∀ entry ∈ books.flight.sent.resolve index .acked,
      (books.flight.conn.streams.get entry.1.streamId).isSome →
        ∀ place < entry.1.length, (entry.1.streamId, entry.1.offset + place) ∈ books.unsettled
  | .call call => ∀ streamId ∈ call.discards, ∀ stream ∈ books.flight.conn.streams.get streamId,
      ∀ byte ∈ books.unsettled, byte.1 = streamId → max stream.send.offFront stream.send.emitOff ≤ byte.2
  | .send _ | .lost _ | .probed _ => True

instance (books : Books) : ∀ event, Decidable (books.Settles event)
  | .acked _ => inferInstanceAs (Decidable (∀ _ ∈ _, _ → ∀ _ < _, _))
  | .call _ => inferInstanceAs (Decidable (∀ _ ∈ _, ∀ _ ∈ _, ∀ _ ∈ _, _ → _))
  | .send _ | .lost _ | .probed _ => .isTrue trivial

theorem mem_stretch {streamId offset length key place : Nat} :
    (key, place) ∈ stretch streamId offset length ↔ key = streamId ∧ offset ≤ place ∧ place < offset + length := by
  simp only [stretch, Finset.mem_image, Finset.mem_range, Prod.mk.injEq]
  constructor
  · rintro ⟨index, bound, rfl, rfl⟩
    exact ⟨rfl, by omega, by omega⟩
  · rintro ⟨rfl, lower, upper⟩
    exact ⟨place - offset, by omega, rfl, by omega⟩

theorem card_stretch (streamId offset length : Nat) : (stretch streamId offset length).card = length := by
  rw [stretch, Finset.card_image_of_injective, Finset.card_range]
  intro left right same
  have := congrArg Prod.snd same
  dsimp only at this
  omega

end Books

end Books

section Records

/-- The byte at the offset was neither acknowledged nor discarded. -/
def Outstanding (stream : Stream) (place : Nat) : Prop :=
  place < stream.send.off ∧ ¬ Covered stream.send.acked.iter place

/-- The bytes are those outstanding on the streams. -/
def Records (conn : Connection) (bytes : Finset (Nat × Nat)) : Prop :=
  ∀ id place, (id, place) ∈ bytes ↔ ∃ stream, conn.streams.get id = some stream ∧ Outstanding stream place

variable {bytes changed : Finset (Nat × Nat)} {place : Nat}

section

variable (records : conn.Records bytes)

include records

theorem Records.live (found : conn.streams.get id = some old) :
    (id, place) ∈ bytes ↔ Outstanding old place := by
  rw [records]
  constructor
  · rintro ⟨stream, same, outstanding⟩
    cases found.symm.trans same
    exact outstanding
  · exact fun outstanding => ⟨old, found, outstanding⟩

theorem Records.origin (origin : conn.Origin id old) :
    (id, place) ∈ bytes ↔ Outstanding old place := by
  cases origin with
  | live found => exact records.live found
  | created absent _ fresh =>
    obtain ⟨maxRxData, maxTxData, window, rfl, _⟩ := fresh
    rw [records]
    constructor
    · rintro ⟨stream, found, _⟩
      cases absent.symm.trans found
    · rintro ⟨below, _⟩
      cases below

theorem Records.idle (streams : next.streams.streams = conn.streams.streams) :
    next.Records bytes := by
  intro id place
  rw [records, StreamMap.get, StreamMap.get, streams]

theorem Records.put (put : Put conn.streams.streams id new next.streams.streams)
    (others : ∀ key place, key ≠ id → ((key, place) ∈ changed ↔ (key, place) ∈ bytes))
    (here : ∀ place, (id, place) ∈ changed ↔ Outstanding new place) : next.Records changed := by
  intro key place
  rw [StreamMap.get, put]
  by_cases same : key = id
  · subst same
    rw [if_pos rfl, here]
    constructor
    · exact fun outstanding => ⟨new, rfl, outstanding⟩
    · rintro ⟨stream, known, outstanding⟩
      cases known
      exact outstanding
  · rw [if_neg same, others key place same, records]
    rfl

theorem Records.dropped (dropped : Dropped conn.streams.streams id next.streams.streams)
    (others : ∀ key place, key ≠ id → ((key, place) ∈ changed ↔ (key, place) ∈ bytes))
    (gone : ∀ place, (id, place) ∉ changed) : next.Records changed := by
  intro key place
  rw [StreamMap.get, dropped]
  by_cases same : key = id
  · subst same
    rw [if_pos rfl]
    constructor
    · exact fun member => absurd member (gone place)
    · rintro ⟨stream, known, _⟩
      cases known
  · rw [if_neg same, others key place same, records]
    rfl

theorem Records.left (left : conn.Left next id new)
    (sound : SendSound conn.isServer id new)
    (others : ∀ key place, key ≠ id → ((key, place) ∈ changed ↔ (key, place) ∈ bytes))
    (here : ∀ place, (id, place) ∈ changed ↔ Outstanding new place) : next.Records changed := by
  cases left with
  | kept put _ => exact records.put put others here
  | collected complete dropped _ =>
    apply records.dropped dropped others
    intro place member
    obtain ⟨below, uncovered⟩ := (here place).mp member
    exact uncovered (sound.covered_of_complete complete below)

end

theorem outstanding_sameData (same : SameData old new) : Outstanding new place ↔ Outstanding old place := by
  rw [Outstanding, Outstanding, same.off, same.acked]

theorem SameData.offset {count : Nat} (same : SameData old new)
    (before : ¬ old.send.WasReset → old.send.off = count) (running : ¬ new.send.WasReset) : new.send.off = count := by
  rw [same.off]
  exact before fun reset => running (same.wasReset.mpr reset)

theorem Records.steady (records : conn.Records bytes) (sound : conn.AllSendSound)
    (steady : Steady SameData conn next call) : next.Records bytes := by
  cases steady with
  | idle streams => exact records.idle streams
  | touched id old new touched same =>
    apply records.put touched.put fun _ _ _ => Iff.rfl
    intro place
    rw [records.origin touched.origin, outstanding_sameData same]
  | left id old new found same left =>
    apply records.left left ((same.evolves _).sound (sound.1 id old found)) fun _ _ _ => Iff.rfl
    intro place
    rw [records.live found, outstanding_sameData same]

end Records

section Writes

variable {Result : Type} {writeFn : SendBuf → Nat → Bool → Option (SendBuf × Except Error (Nat × Result))}
  {len : Nat} {fin : Bool}

theorem streamDoSend_buffers {result : Except Error Result}
    (called : conn.streamDoSend id len fin writeFn = some (next, result)) :
    (next.streams = conn.streams ∧ next.txBuffered = conn.txBuffered ∨
        isBidi id = true ∨ isLocal id conn.isServer = true) ∧
      match result with
      | .ok value => ∃ send cap last written sent,
          writeFn send cap last = some (written, .ok (sent, value)) ∧ next.txBuffered = conn.txBuffered + sent
      | .error _ => next.txBuffered = conn.txBuffered := by
  rw [streamDoSend] at called
  split at called
  · cases called
    exact ⟨.inl ⟨rfl, rfl⟩, rfl⟩
  rename_i maySend
  have sends : isBidi id = true ∨ isLocal id conn.isServer = true := by
    simpa [Decidable.or_iff_not_imp_left] using maySend
  obtain ⟨left, _, called⟩ := Option.bind_eq_some_iff.mp called
  dsimp only at called
  split at called
  · cases called
    exact ⟨.inr sends, rfl⟩
  split at called
  · cases called
    exact ⟨.inr sends, rfl⟩
  obtain ⟨⟨send, written⟩, wrote, called⟩ := Option.bind_eq_some_iff.mp called
  cases written with
  | error error =>
    cases called
    exact ⟨.inr sends, rfl⟩
  | ok output =>
    obtain ⟨sent, value⟩ := output
    obtain ⟨txCap, _, called⟩ := Option.bind_eq_some_iff.mp called
    dsimp only at called
    split at called
    · rename_i idle
      cases called
      refine ⟨.inr sends, ?_⟩
      dsimp only
      omega
    · cases called
      exact ⟨.inr sends, _, _, _, send, sent, wrote, rfl⟩

def taken (conn : Connection) (call : Call) : Nat :=
  match call.takes conn with
  | some (_, sent) => sent
  | none => 0

variable {buf : List UInt8}

theorem streamSend_taken {result : Except Error Nat} (called : conn.streamSend id buf fin = some (next, result)) :
    next.txBuffered = conn.txBuffered + conn.taken (.streamSend id buf fin) := by
  have buffers := (streamDoSend_buffers called).2
  rw [taken, Call.takes, called]
  cases result with
  | error error => exact buffers
  | ok value =>
    obtain ⟨send, cap, last, written, sent, wrote, grown⟩ := buffers
    obtain ⟨⟨extended, _ | count⟩, _, same⟩ := Option.bind_eq_some_iff.mp wrote <;> cases same
    exact grown

theorem streamSendZc_taken {limit : Option Nat} {result : Except Error (Nat × Option (List UInt8))}
    (called : conn.streamSendZc id buf limit fin = some (next, result)) :
    next.txBuffered = conn.txBuffered + conn.taken (.streamSendZc id buf limit fin) := by
  have buffers := (streamDoSend_buffers called).2
  rw [taken, Call.takes, called]
  cases result with
  | error error => exact buffers
  | ok value =>
    obtain ⟨send, cap, last, written, sent, wrote, grown⟩ := buffers
    obtain ⟨⟨extended, _ | count⟩, _, same⟩ := Option.bind_eq_some_iff.mp wrote <;> cases same
    exact grown

/-- At most one stream changes, and `tx_buffered` grows by what it accepts. -/
inductive Extends (conn next : Connection) (id : Nat) : Prop where
  | idle (streams : next.streams.streams = conn.streams.streams)
      (txBuffered : next.txBuffered = conn.txBuffered)
  | touched (old new : Stream) (sent : Nat) (touched : conn.Touched next id old new)
      (tracked : old.send.Tracked → new.send.Tracked) (off : new.send.off = old.send.off + sent)
      (acked : new.send.acked = old.send.acked) (emitOff : new.send.emitOff = old.send.emitOff)
      (wasReset : new.send.WasReset ↔ old.send.WasReset)
      (final : old.send.Tracked → old.send.WasReset → sent = 0)
      (bidi : new.bidi = old.bidi) (isLocal : new.isLocal = old.isLocal)
      (txBuffered : next.txBuffered = conn.txBuffered + sent)

theorem Wrote.extends_ (filled : ∀ {send cap fin written result}, writeFn send cap fin = some (written, result) →
      SendBuf.Filled send written ∧ SendBuf.Extended send cap (result.map (·.1)) written)
    (wrote : conn.Wrote next id len fin writeFn) : Extends conn next id := by
  cases wrote with
  | refused frame =>
    rw [frame]
    exact .idle rfl rfl
  | waiting old touched _ frame =>
    exact .touched old old 0 touched (fun tracked => tracked) rfl rfl rfl Iff.rfl (fun _ _ => rfl) rfl rfl
      (by rw [frame]; rfl)
  | failed old send error called touched _ frame =>
    have same : send = old.send := (filled called).2.failed error rfl
    subst same
    exact .touched old _ 0 touched (fun tracked => tracked) rfl rfl rfl Iff.rfl (fun _ _ => rfl) rfl rfl
      (by rw [frame]; rfl)
  | wrote old send sent result blockedAt called touched _ _ frame =>
    obtain ⟨filled, extended⟩ := filled called
    have off : send.off = old.send.off + sent := extended.off
    have tracked : old.send.Tracked → (send.updateBlockedAt blockedAt).Tracked := fun tracked =>
      (tracked.filled (extended.placed tracked.placed) (by omega) filled).updateBlockedAt blockedAt
    have final : old.send.Tracked → old.send.WasReset → sent = 0 := by
      intro tracked reset
      have ended := (filled.final (tracked.settled reset).1).1
      omega
    obtain ⟨data, end_, len, finOff, same⟩ := filled.frame
    refine .touched old _ sent touched tracked off ?_ ?_ ?_ final rfl rfl (by rw [frame])
    · show send.acked = _
      rw [same]
    · show send.emitOff = _
      rw [same]
    · show (send.error.isSome = true ∨ send.isShutdown = true) ↔ _
      rw [same]
      exact Iff.rfl

theorem streamSend_extends (called : conn.streamSend id buf fin = some (next, result)) : Extends conn next id := by
  refine (streamDoSend_spec called).extends_ fun wrote => ⟨?_, write_extends wrote⟩
  obtain ⟨⟨extended, count⟩, writing, same⟩ := Option.bind_eq_some_iff.mp wrote
  cases same
  exact SendBuf.write_filled writing

theorem streamSendZc_extends {limit : Option Nat} {result : Except Error (Nat × Option (List UInt8))}
    (called : conn.streamSendZc id buf limit fin = some (next, result)) : Extends conn next id := by
  refine (streamDoSend_spec called).extends_ fun wrote => ⟨?_, append_extends wrote⟩
  obtain ⟨⟨extended, count⟩, writing, same⟩ := Option.bind_eq_some_iff.mp wrote
  cases same
  exact SendBuf.appendBuf_filled writing

end Writes

namespace Books

variable {books after : Books}

/-- `tx_buffered` counts the bytes that were accepted and neither acknowledged nor given up, and the packets in
flight are known to their streams. -/
structure Exact (books : Books) : Prop where
  sound : books.flight.conn.AllSendSound
  sentSeen : ∀ entry ∈ books.flight.sent, books.flight.conn.Seen entry.1.streamId
  sentWithin : ∀ entry ∈ books.flight.sent, ∀ stream, books.flight.conn.streams.get entry.1.streamId = some stream →
      entry.1.offset + entry.1.length ≤ stream.send.emitOff
  acceptedSeen : ∀ id, books.accepted id ≠ 0 → books.flight.conn.Seen id
  offset : ∀ id stream, books.flight.conn.streams.get id = some stream → ¬ stream.send.WasReset →
    stream.send.off = books.accepted id
  records : books.flight.conn.Records books.unsettled
  buffered : books.flight.conn.txBuffered = books.unsettled.card

theorem start_exact (config : Config) (scid : List UInt8) (localAddr peerAddr : SocketAddr)
    (addressVerified isServer : Bool) : (start config scid localAddr peerAddr addressVerified isServer).Exact where
  sound := by
    refine ⟨fun id stream found => ?_, show TransportParams.default.Small by decide⟩
    cases found
  sentSeen := by simp [start, Flight.start]
  sentWithin := by simp [start, Flight.start]
  acceptedSeen := fun id used => absurd rfl used
  offset := by
    intro id stream found
    cases found
  records := by
    intro id place
    constructor
    · exact fun member => absurd member (Finset.notMem_empty _)
    · rintro ⟨stream, found, _⟩
      cases found
  buffered := rfl

section

variable (exact_ : books.Exact)

include exact_

theorem Exact.frames (changes : Changes books.flight.conn conn call)
    (stepped : books.flight.conn.step call = some conn) : (∀ entry ∈ books.flight.sent, conn.Seen entry.1.streamId) ∧
      (∀ entry ∈ books.flight.sent, ∀ stream, conn.streams.get entry.1.streamId = some stream →
        entry.1.offset + entry.1.length ≤ stream.send.emitOff) ∧ ∀ id, books.accepted id ≠ 0 → conn.Seen id := by
  have seen : ∀ {id}, books.flight.conn.Seen id → conn.Seen id := changes.steady.seen stepped
  refine ⟨fun entry sent => seen (exact_.sentSeen entry sent), ?_,
    fun id used => seen (exact_.acceptedSeen id used)⟩
  exact fun entry sent => changes.reached exact_.sound (exact_.sentSeen entry sent)
    (exact_.sentWithin entry sent)

theorem Exact.offset_origin (origin : books.flight.conn.Origin id old)
    (running : ¬ old.send.WasReset) : old.send.off = books.accepted id := by
  cases origin with
  | live found => exact exact_.offset id old found running
  | created absent uncollected fresh =>
    obtain ⟨maxRxData, maxTxData, window, rfl, _⟩ := fresh
    by_contra used
    rcases exact_.acceptedSeen id (fun none => used none.symm) with present | collected
    · rw [absent] at present
      cases present
    · exact uncollected collected

theorem Exact.offset_put {accepted : Nat → Nat}
    (put : Put books.flight.conn.streams.streams id new conn.streams.streams)
    (others : ∀ key, key ≠ id → accepted key = books.accepted key)
    (here : ¬ new.send.WasReset → new.send.off = accepted id) :
    ∀ key stream, conn.streams.get key = some stream → ¬ stream.send.WasReset → stream.send.off = accepted key := by
  intro key stream found running
  rw [StreamMap.get, put] at found
  split at found
  · rename_i same
    cases found
    rw [same]
    exact here running
  · rename_i different
    rw [others key different]
    exact exact_.offset key stream found running

theorem Exact.offset_left (left : books.flight.conn.Left conn id new)
    (here : ¬ new.send.WasReset → new.send.off = books.accepted id) :
    ∀ key stream, conn.streams.get key = some stream → ¬ stream.send.WasReset →
      stream.send.off = books.accepted key := by
  cases left with
  | kept put _ => exact exact_.offset_put put (fun _ _ => rfl) here
  | collected _ dropped _ =>
    intro key stream found running
    rw [StreamMap.get, dropped] at found
    split at found
    · cases found
    · exact exact_.offset key stream found running

theorem Exact.steady
    (stepped : books.flight.conn.step call = some conn) (steady : Steady SameData books.flight.conn conn call)
    (same : SameBooks books.flight.conn conn) : { books with flight := { books.flight with conn } }.Exact := by
  have changes := changes_of_sameData steady
  obtain ⟨sentSeen, sentWithin, acceptedSeen⟩ := exact_.frames changes stepped
  refine
    { sound := changes.sound exact_.sound same.isServer (same.limits exact_.sound.2)
      sentSeen, sentWithin, acceptedSeen
      offset := ?_
      records := exact_.records.steady exact_.sound steady
      buffered := same.txBuffered.trans exact_.buffered }
  cases steady with
  | idle streams =>
    intro id stream found running
    dsimp only at found
    rw [StreamMap.get, streams] at found
    exact exact_.offset id stream found running
  | touched other old new touched alike =>
    exact exact_.offset_put touched.put (fun _ _ => rfl)
      (alike.offset (exact_.offset_origin touched.origin))
  | left other old new present alike left _ =>
    exact exact_.offset_left left (alike.offset (exact_.offset other old present))

theorem Exact.send {left : Nat} {sent : Option StreamHeader}
    (sending : books.flight.conn.sendStream left = some (conn, sent)) : { books with
      flight := { books.flight with
        conn
        sent := sent.elim books.flight.sent books.flight.sent.send } }.Exact := by
  have stepped : books.flight.conn.step (.sendStream left) = some conn := by
    show (books.flight.conn.sendStream left).map (·.1) = some conn
    rw [sending]
    rfl
  obtain ⟨frame, made⟩ := sendStream_carries sending
  have same : SameBooks books.flight.conn conn := by
    rw [frame]
    exact ⟨rfl, rfl, fun small => small⟩
  rcases made with ⟨rfl, streams⟩ | ⟨header, old, send, outLen, out, rfl, carries⟩
  · exact exact_.steady stepped (.idle streams) same
  · have kept := exact_.steady stepped carries.steady same
    have present : conn.streams.get header.streamId = some { old with send } := by
      rw [StreamMap.get, carries.put, if_pos rfl]
    have reached : header.offset + header.length ≤ send.emitOff := by
      have tracked := (exact_.sound.1 _ _ carries.found).tracked
      rw [carries.offset, carries.length]
      exact (tracked.emit carries.emitted).2
    refine { kept with sentSeen := ?_, sentWithin := ?_ }
    · intro entry member
      rcases List.mem_append.mp member with earlier | last
      · exact kept.sentSeen entry earlier
      · rw [List.mem_singleton.mp last]
        exact .inl (by rw [present]; rfl)
    · intro entry member stream found
      rcases List.mem_append.mp member with earlier | last
      · exact kept.sentWithin entry earlier stream found
      · rw [List.mem_singleton.mp last] at found ⊢
        cases present.symm.trans found
        exact reached

theorem Exact.lostStream {lost : StreamHeader}
    (retransmitted : books.flight.conn.lostStream lost = some conn) :
    { books with flight := { books.flight with conn } }.Exact := by
  have stepped : books.flight.conn.step (.lostStream lost) = some conn := retransmitted
  rcases lostStream_spec retransmitted with rfl | ⟨old, send, found, requeued, put, _, frame⟩
  · exact exact_
  · apply exact_.steady stepped (.touched lost.streamId old _ ⟨.live found, put⟩ (sameData_retransmit requeued))
    rw [frame]
    exact ⟨rfl, rfl, fun small => small⟩

theorem Exact.lostFrames {lost : List StreamHeader}
    (processed : lost.foldlM Connection.lostStream books.flight.conn = some conn) :
    { books with flight := { books.flight with conn } }.Exact := by
  induction lost generalizing books with
  | nil =>
    cases processed
    exact exact_
  | cons first lost ih =>
    obtain ⟨middle, retransmitted, processed⟩ := Option.bind_eq_some_iff.mp processed
    exact @ih { books with flight := { books.flight with conn := middle } } (exact_.lostStream retransmitted) processed

theorem Exact.resolved {index : Nat} {fate : Fate} {frame : StreamHeader}
    {sent : Ledger StreamHeader} (resolved : books.flight.sent.resolve index fate = some (frame, sent))
    (lostFrames : List StreamHeader) : { books with flight := { books.flight with sent, lostFrames } }.Exact := by
  refine { exact_ with sentSeen := ?_, sentWithin := ?_ }
  · intro entry member
    obtain ⟨earlier, before, same⟩ := Ledger.item_mem_of_resolve resolved member
    rw [← same]
    exact exact_.sentSeen earlier before
  · intro entry member
    obtain ⟨earlier, before, same⟩ := Ledger.item_mem_of_resolve resolved member
    rw [← same]
    exact exact_.sentWithin earlier before

theorem Exact.acked {frame : StreamHeader} {fate : Fate}
    (sent : (frame, fate) ∈ books.flight.sent) (settles : (books.flight.conn.streams.get frame.streamId).isSome →
      ∀ place < frame.length, (frame.streamId, frame.offset + place) ∈ books.unsettled)
    (acked : books.flight.conn.ackedStream frame.streamId frame.offset frame.length = some conn) :
    { books.acknowledge frame with flight := { books.flight with conn } }.Exact := by
  have stepped : books.flight.conn.step (.ackedStream frame.streamId frame.offset frame.length) = some conn := acked
  rcases ackedStream_spec acked with ⟨absent, rfl⟩ | ⟨old, send, found, dropped, left, changed⟩
  · -- Nothing is recorded for a stream that is gone.
    have untouched : books.unsettled \ stretch frame.streamId frame.offset frame.length = books.unsettled := by
      apply Finset.sdiff_eq_self_of_disjoint
      rw [Finset.disjoint_right]
      rintro ⟨key, place⟩ member listed
      obtain ⟨rfl, _⟩ := mem_stretch.mp member
      obtain ⟨stream, found, _⟩ := (exact_.records _ _).mp listed
      cases absent.symm.trans found
    rw [acknowledge, untouched]
    exact exact_
  have fresh := settles (by rw [found]; rfl)
  have within := exact_.sentWithin _ sent old found
  have before := exact_.sound.1 _ _ found
  obtain ⟨tracked, off, emitOff, covered⟩ := before.tracked.ackAndDrop within dropped
  have after : SendSound books.flight.conn.isServer frame.streamId { old with send } :=
    ⟨tracked, before.bidi, before.locality, fun uni remote => off.trans (before.untouched uni remote)⟩
  have wasReset : send.WasReset ↔ old.send.WasReset := by
    obtain ⟨_, _, rfl⟩ := SendBuf.ackAndDrop_frame dropped
    exact Iff.rfl
  have changes : Changes books.flight.conn conn (.ackedStream frame.streamId frame.offset frame.length) :=
    .left frame.streamId old { old with send } found left rfl
      fun _ => ⟨fun _ => after, Nat.le_of_eq emitOff.symm⟩
  have listed : stretch frame.streamId frame.offset frame.length ⊆ books.unsettled := by
    rintro ⟨key, place⟩ member
    obtain ⟨rfl, lower, upper⟩ := mem_stretch.mp member
    have member := fresh (place - frame.offset) (by omega)
    rwa [Nat.add_sub_of_le lower] at member
  obtain ⟨sentSeen, sentWithin, acceptedSeen⟩ := exact_.frames changes stepped
  have isServer : conn.isServer = books.flight.conn.isServer := by rw [changed]
  have limits : conn.peerTransportParams.Small := by rw [changed]; exact exact_.sound.2
  refine
    { sound := changes.sound exact_.sound isServer limits
      sentSeen, sentWithin, acceptedSeen
      offset := exact_.offset_left left fun running =>
        off.trans (exact_.offset _ _ found fun reset => running (wasReset.mpr reset))
      records := ?_
      buffered := ?_ }
  · apply exact_.records.left left after
    · intro key place different
      rw [acknowledge, Finset.mem_sdiff, mem_stretch]
      exact and_iff_left fun inside => different inside.1
    · intro place
      rw [acknowledge, Finset.mem_sdiff, mem_stretch, exact_.records.live found, Outstanding, Outstanding,
        covered, off]
      simp only [true_and]
      tauto
  · have total := Finset.card_sdiff_add_card_eq_card listed
    rw [card_stretch, ← exact_.buffered] at total
    have count : conn.txBuffered = books.flight.conn.txBuffered - frame.length := by rw [changed]
    dsimp only [acknowledge]
    omega

end

theorem accept_zero (books : Books) (streamId : Nat) : books.accept streamId 0 = books := by
  have none : stretch streamId (books.accepted streamId) 0 = ∅ := rfl
  rw [accept, none, Finset.union_empty]
  simp only [Nat.add_zero, ite_self]

theorem Exact.extends_ (exact_ : books.Exact) {sent : Nat}
    (stepped : books.flight.conn.step call = some conn) (extends_ : Extends books.flight.conn conn id)
    (maySend : conn.streams = books.flight.conn.streams ∧ conn.txBuffered = books.flight.conn.txBuffered ∨
      isBidi id = true ∨ isLocal id books.flight.conn.isServer = true)
    (isServer : conn.isServer = books.flight.conn.isServer)
    (params : conn.peerTransportParams = books.flight.conn.peerTransportParams)
    (count : conn.txBuffered = books.flight.conn.txBuffered + sent) :
    { books.accept id sent with flight := { books.flight with conn } }.Exact := by
  have limits : conn.peerTransportParams.Small := by
    rw [params]
    exact exact_.sound.2
  have idle : conn.streams.streams = books.flight.conn.streams.streams →
      conn.txBuffered = books.flight.conn.txBuffered →
      { books.accept id sent with flight := { books.flight with conn } }.Exact := by
    intro streams txBuffered
    obtain rfl : sent = 0 := by omega
    rw [accept_zero]
    exact exact_.steady stepped (.idle streams) ⟨isServer, txBuffered, fun _ => limits⟩
  rcases maySend with ⟨streams, txBuffered⟩ | sends
  · exact idle (by rw [streams]) txBuffered
  cases extends_ with
  | idle streams txBuffered => exact idle streams txBuffered
  | touched old new taken touched tracked off acked emitOff wasReset final bidi isLocal txBuffered =>
    obtain rfl : taken = sent := by omega
    have before := exact_.sound.origin touched.origin
    have after : SendSound books.flight.conn.isServer id new := by
      refine ⟨tracked before.tracked, bidi.trans before.bidi, isLocal.trans before.locality, ?_⟩
      intro uni remote
      rw [uni, remote] at sends
      simp at sends
    have changes : Changes books.flight.conn conn call :=
      .touched id old new touched fun _ => ⟨fun _ => after, Nat.le_of_eq emitOff.symm⟩
    obtain ⟨sentSeen, sentWithin, acceptedSeen⟩ := exact_.frames changes stepped
    -- Only a stream that was not reset accepts anything, and it does so at its end.
    have start : taken ≠ 0 → books.accepted id = old.send.off := by
      intro positive
      exact (exact_.offset_origin touched.origin fun reset => positive (final before.tracked reset)).symm
    refine
      { sound := changes.sound exact_.sound isServer limits
        sentSeen, sentWithin
        acceptedSeen := ?_
        offset := ?_
        records := ?_
        buffered := ?_ }
    · intro key used
      dsimp only [accept] at used
      split at used
      · rename_i same
        left
        dsimp only
        rw [StreamMap.get, touched.put, if_pos same]
        rfl
      · exact acceptedSeen key used
    · apply exact_.offset_put touched.put
      · intro key different
        exact if_neg different
      · intro running
        dsimp only [accept]
        rw [if_pos rfl, off, exact_.offset_origin touched.origin fun reset => running (wasReset.mpr reset)]
    · apply exact_.records.put touched.put
      · intro key place different
        rw [accept, Finset.mem_union, mem_stretch]
        exact or_iff_left fun inside => different inside.1
      · intro place
        rw [accept, Finset.mem_union, mem_stretch, exact_.records.origin touched.origin, Outstanding,
          Outstanding, off, acked]
        constructor
        · rintro (⟨below, uncovered⟩ | ⟨_, lower, upper⟩)
          · exact ⟨by omega, uncovered⟩
          · have accepts := start (by omega)
            refine ⟨by omega, fun covered => ?_⟩
            have := before.tracked.ackedWithin place covered
            omega
        · rintro ⟨below, uncovered⟩
          by_cases inside : place < old.send.off
          · exact .inl ⟨inside, uncovered⟩
          · have accepts := start (by omega)
            exact .inr ⟨rfl, by omega, by omega⟩
    · have disjoint : Disjoint books.unsettled (stretch id (books.accepted id) taken) := by
        rw [Finset.disjoint_right]
        rintro ⟨key, place⟩ member listed
        obtain ⟨rfl, lower, upper⟩ := mem_stretch.mp member
        have accepts := start (by omega)
        have below := ((exact_.records.origin touched.origin).mp listed).1
        omega
      dsimp only [accept]
      rw [Finset.card_union_of_disjoint disjoint, card_stretch, ← exact_.buffered, txBuffered]

theorem Exact.resets (exact_ : books.Exact) {send : SendBuf} {unsent : Nat}
    (stepped : books.flight.conn.step call = some conn)
    (touched : books.flight.conn.Touched conn id old { old with send })
    (settled : old.send.Tracked → SendBuf.Settled old.send unsent send)
    (settles : ∀ stream ∈ books.flight.conn.streams.get id, ∀ byte ∈ books.unsettled, byte.1 = id →
      max stream.send.offFront stream.send.emitOff ≤ byte.2)
    (isServer : conn.isServer = books.flight.conn.isServer)
    (params : conn.peerTransportParams = books.flight.conn.peerTransportParams)
    (count : conn.txBuffered = books.flight.conn.txBuffered - unsent) :
    { books.discard id with flight := { books.flight with conn } }.Exact := by
  have before := exact_.sound.origin touched.origin
  have settled := settled before.tracked
  have bound := before.tracked.cut_le
  have after : SendSound books.flight.conn.isServer id { old with send } := by
    refine ⟨settled.tracked, before.bidi, before.locality, fun uni remote => ?_⟩
    have none := before.untouched uni remote
    have cut := settled.off
    dsimp only
    omega
  have changes : Changes books.flight.conn conn call :=
    .touched id old _ touched fun _ => ⟨fun _ => after, Nat.le_of_eq settled.emitOff.symm⟩
  obtain ⟨sentSeen, sentWithin, acceptedSeen⟩ := exact_.frames changes stepped
  -- What is recorded for the stream was never sent.
  have waiting : ∀ place, (id, place) ∈ books.unsettled ↔ send.off ≤ place ∧ place < old.send.off := by
    intro place
    rw [settled.off]
    constructor
    · intro listed
      refine ⟨?_, ((exact_.records.origin touched.origin).mp listed).1⟩
      obtain ⟨stream, found, _⟩ := (exact_.records id place).mp listed
      have live := Seen.live (.inl (by rw [found]; rfl)) touched.origin
      exact settles old live (id, place) listed rfl
    · rintro ⟨lower, upper⟩
      refine (exact_.records.origin touched.origin).mpr ⟨upper, fun covered => ?_⟩
      exact absurd (before.tracked.acked_lt_cut covered) (Nat.not_lt.mpr lower)
  have removed : books.unsettled.filter (fun byte => byte.1 ≠ id) = books.unsettled \ stretch id send.off unsent := by
    ext ⟨key, place⟩
    rw [Finset.mem_filter, Finset.mem_sdiff, mem_stretch]
    constructor
    · rintro ⟨listed, different⟩
      exact ⟨listed, fun inside => different inside.1⟩
    · rintro ⟨listed, outside⟩
      refine ⟨listed, fun same => ?_⟩
      dsimp only at same
      subst same
      have place := (waiting place).mp listed
      have given := settled.unsent_eq
      exact outside ⟨rfl, by omega, by omega⟩
  have listed : stretch id send.off unsent ⊆ books.unsettled := by
    rintro ⟨key, place⟩ member
    obtain ⟨rfl, lower, upper⟩ := mem_stretch.mp member
    have given := settled.unsent_eq
    exact (waiting place).mpr ⟨lower, by omega⟩
  refine
    { sound := changes.sound exact_.sound isServer (by rw [params]; exact exact_.sound.2)
      sentSeen, sentWithin, acceptedSeen
      offset := exact_.offset_put touched.put (fun _ _ => rfl) fun running => absurd settled.reset running
      records := ?_
      buffered := ?_ }
  · apply exact_.records.put touched.put
    · intro key place different
      rw [discard, Finset.mem_filter]
      exact and_iff_left different
    · intro place
      rw [discard, Finset.mem_filter]
      constructor
      · exact fun member => absurd rfl member.2
      · rintro ⟨below, uncovered⟩
        exact absurd ((settled.tracked.settled settled.reset).2.2 place below) uncovered
  · have total := Finset.card_sdiff_add_card_eq_card listed
    rw [card_stretch, ← exact_.buffered] at total
    dsimp only [discard]
    rw [removed, count]
    omega

theorem discard_none (none : ∀ place, (id, place) ∉ books.unsettled) : books.discard id = books := by
  rw [discard, Finset.filter_true_of_mem]
  rintro ⟨key, place⟩ listed same
  exact none place (same ▸ listed)

theorem Exact.none_of_reset (exact_ : books.Exact) (found : books.flight.conn.streams.get id = some old)
    (reset : old.send.WasReset) (place : Nat) : (id, place) ∉ books.unsettled := by
  intro listed
  obtain ⟨below, uncovered⟩ := (exact_.records.live found).mp listed
  exact uncovered (((exact_.sound.1 id old found).tracked.settled reset).2.2 place below)

theorem Exact.none_of_absent (exact_ : books.Exact) (absent : books.flight.conn.streams.get id = none)
    (place : Nat) : (id, place) ∉ books.unsettled := by
  intro listed
  obtain ⟨stream, found, _⟩ := (exact_.records id place).mp listed
  cases absent.symm.trans found

variable {streamId : Nat}

theorem Exact.stopSending (exact_ : books.Exact) {errorCode : Nat}
    (settles : books.Settles (.call (.stopSending streamId errorCode)))
    (stepped : books.flight.conn.step (.stopSending streamId errorCode) = some conn) :
    { books.discard streamId with flight := { books.flight with conn } }.Exact := by
  rcases processStopSending_spec (processed_spec stepped) with
    ⟨absent, rfl⟩ | ⟨old, send, result, touched, stopped, _, _, frame⟩
  · rw [discard_none (exact_.none_of_absent absent)]
    exact exact_
  have isServer : conn.isServer = books.flight.conn.isServer := by rw [frame]
  have params : conn.peerTransportParams = books.flight.conn.peerTransportParams := by rw [frame]
  cases result with
  | error error =>
    have same := stop_error stopped
    have reset : old.send.WasReset := by
      rw [SendBuf.stop] at stopped
      split at stopped
      · exact .inl ‹_›
      · obtain ⟨⟨cut, sizes⟩, _, stopped⟩ := Option.bind_eq_some_iff.mp stopped
        cases stopped
    subst same
    have none : ∀ place, (streamId, place) ∉ books.unsettled := by
      intro place listed
      obtain ⟨below, uncovered⟩ := (exact_.records.origin touched.origin).mp listed
      exact uncovered (((exact_.sound.origin touched.origin).tracked.settled reset).2.2 place below)
    rw [discard_none none]
    apply exact_.steady stepped (.touched streamId old _ touched (.of_eq rfl rfl rfl))
    exact ⟨isServer, by rw [frame]; rfl, fun small => by rw [params]; exact small⟩
  | ok sizes =>
    exact exact_.resets stepped touched (fun tracked => tracked.stop stopped)
      (settles streamId rfl) isServer params (by rw [frame]; rfl)

theorem Exact.shutdown (exact_ : books.Exact) {err cwinAvailable : Nat}
    (settles : books.Settles (.call (.streamShutdown streamId .write err cwinAvailable)))
    (stepped : books.flight.conn.step (.streamShutdown streamId .write err cwinAvailable) = some conn) :
    { books.discard streamId with flight := { books.flight with conn } }.Exact := by
  obtain ⟨result, shut⟩ := called_spec stepped
  rcases streamShutdown_write_spec shut with
    ⟨rfl, idle⟩ | ⟨old, send, finalSize, unsent, found, _, done, put, _, _, frame⟩
  · have none : ∀ place, (streamId, place) ∉ books.unsettled := by
      intro place listed
      obtain ⟨stream, found, below, uncovered⟩ := (exact_.records streamId place).mp listed
      rcases idle stream found with remote | reset
      · obtain ⟨remotely, uni⟩ := Bool.or_eq_false_iff.mp remote
        rw [(exact_.sound.1 streamId stream found).untouched uni remotely] at below
        cases below
      · exact exact_.none_of_reset found (.inr reset) place listed
    rw [discard_none none]
    exact exact_
  · exact exact_.resets stepped ⟨.live found, put⟩ (fun tracked => tracked.shutdown done)
      (settles streamId rfl) (by rw [frame]) (by rw [frame]) (by rw [frame])

theorem record_takes (keeps : call.discards = none) (takes : ∀ pair ∈ call.takes books.flight.conn, pair.1 = streamId) :
    books.record (.call call) = books.accept streamId (books.flight.conn.taken call) := by
  rw [record, taken, keeps]
  cases known : call.takes books.flight.conn with
  | none => exact (accept_zero books streamId).symm
  | some pair =>
    obtain ⟨key, sent⟩ := pair
    have same : key = streamId := takes _ known
    rw [same]

theorem takes_streamSend {buf : List UInt8} {fin : Bool} :
    ∀ pair ∈ (Call.streamSend streamId buf fin).takes conn, pair.1 = streamId := by
  intro pair known
  rw [Call.takes] at known
  split at known <;> cases known
  rfl

theorem takes_streamSendZc {buf : List UInt8} {limit : Option Nat} {fin : Bool} :
    ∀ pair ∈ (Call.streamSendZc streamId buf limit fin).takes conn, pair.1 = streamId := by
  intro pair known
  rw [Call.takes] at known
  split at known <;> cases known
  rfl

theorem Exact.calls (exact_ : books.Exact) (settles : books.Settles (.call call))
    (plain : call.plain = true) (stepped : books.flight.conn.step call = some conn) :
    { books.record (.call call) with flight := { books.flight with conn } }.Exact := by
  cases idles : call.idles with
  | true =>
    have record : books.record (.call call) = books := by
      cases call with
      | stopSending | streamSend | streamSendZc => contradiction
      | streamShutdown streamId direction err cwinAvailable =>
        cases direction with
        | write => contradiction
        | read => rfl
      | _ => rfl
    obtain ⟨steady, same⟩ := step_sameData stepped plain idles
    rw [record]
    exact exact_.steady stepped steady same
  | false =>
    have write : ∀ {streamId}, Extends books.flight.conn conn streamId →
        (conn.streams = books.flight.conn.streams ∧ conn.txBuffered = books.flight.conn.txBuffered ∨
          isBidi streamId = true ∨ isLocal streamId books.flight.conn.isServer = true) →
        conn.txBuffered = books.flight.conn.txBuffered + books.flight.conn.taken call →
        books.record (.call call) = books.accept streamId (books.flight.conn.taken call) →
        { books.record (.call call) with flight := { books.flight with conn } }.Exact := by
      intro streamId extended maySend count record
      have framed := (step_alters stepped).2
      have params := framed.params.resolve_right (by rintro ⟨_, rfl⟩; cases idles)
      rw [record]
      exact exact_.extends_ stepped extended maySend framed.isServer params count
    cases call with
    | stopSending streamId errorCode => exact exact_.stopSending settles stepped
    | streamShutdown streamId direction err cwinAvailable =>
      cases direction with
      | read => contradiction
      | write => exact exact_.shutdown settles stepped
    | streamSend streamId buf fin =>
      obtain ⟨result, called⟩ := called_spec stepped
      exact write (streamSend_extends called) (streamDoSend_buffers called).1 (streamSend_taken called)
        (record_takes rfl takes_streamSend)
    | streamSendZc streamId buf len fin =>
      obtain ⟨result, called⟩ := called_spec stepped
      exact write (streamSendZc_extends called) (streamDoSend_buffers called).1 (streamSendZc_taken called)
        (record_takes rfl takes_streamSendZc)
    | _ => contradiction

theorem Exact.step {event : Flight.Event} (exact_ : books.Exact) (settles : books.Settles event)
    (stepped : books.step event = some after) : after.Exact := by
  obtain ⟨flight, moved, rfl⟩ := Option.map_eq_some_iff.mp stepped
  cases event with
  | call call =>
    rw [Flight.step] at moved
    split at moved
    · rename_i plain
      obtain ⟨conn, called, rfl⟩ := Option.map_eq_some_iff.mp moved
      exact exact_.calls settles plain called
    · cases moved
  | send left =>
    obtain ⟨middle, processed, moved⟩ := Option.bind_eq_some_iff.mp moved
    obtain ⟨⟨conn, header⟩, sending, moved⟩ := Option.bind_eq_some_iff.mp moved
    cases moved
    have sent := (exact_.lostFrames processed).send sending
    exact { sent with }
  | acked index =>
    rw [Flight.step] at moved
    rw [record]
    cases known : books.flight.sent.resolve index .acked with
    | none =>
      rw [known] at moved
      cases moved
      exact exact_
    | some entry =>
      obtain ⟨frame, sent⟩ := entry
      rw [known] at moved
      obtain ⟨conn, acked, moved⟩ := Option.bind_eq_some_iff.mp moved
      cases moved
      have settled := exact_.acked (Ledger.mem_of_resolve known) (settles _ known) acked
      exact settled.resolved known books.flight.lostFrames
  | lost index =>
    rw [Flight.step] at moved
    split at moved
    · cases moved
      exact exact_
    · rename_i frame sent known
      cases moved
      exact exact_.resolved known _
  | probed index =>
    rw [Flight.step] at moved
    split at moved
    · cases moved
      exact { exact_ with }
    · cases moved
      exact exact_

/-- In a run in which no byte is settled twice and no stream is reset with bytes in flight,
the connection counts as buffered the bytes that were accepted and neither acknowledged nor
discarded, so none when no stream holds such bytes. -/
theorem tx_buffered_exact {config : Config} {scid : List UInt8} {localAddr peerAddr : SocketAddr}
    {addressVerified isServer : Bool} {events : List Flight.Event}
    (settles : machine.Guarded Settles (start config scid localAddr peerAddr addressVerified isServer) events)
    (reached : machine.run (start config scid localAddr peerAddr addressVerified isServer) events = some books) :
    books.flight.conn.txBuffered = books.unsettled.card ∧
      ((∀ id stream, books.flight.conn.streams.get id = some stream → ∀ place, ¬ Outstanding stream place) →
        books.flight.conn.txBuffered = 0) := by
  have exact_ : books.Exact :=
    machine.run_keeps_of_guarded (fun _ _ _ exact_ settles stepped => exact_.step settles stepped)
      (start_exact config scid localAddr peerAddr addressVerified isServer) settles reached
  refine ⟨exact_.buffered, fun settled => ?_⟩
  rw [exact_.buffered, Finset.card_eq_zero, Finset.eq_empty_iff_forall_notMem]
  rintro ⟨id, place⟩ listed
  obtain ⟨stream, found, outstanding⟩ := (exact_.records id place).mp listed
  exact settled id stream found place outstanding

/-- A frame is lost, sent again and acknowledged too late, a probe carries it once more, a stream that
sent nothing is reset, and three bytes wait. -/
def resentRun : List Flight.Event :=
  [.call (.peerTransportParams History.peerLimits 20), .call (.streamSend 1 [1, 2, 3] false), .send 100, .lost 0,
    .send 100, .acked 0, .probed 1, .call (.streamSend 5 [4, 5] false), .call (.streamShutdown 5 .write 0 20),
    .send 100, .acked 1, .lost 2, .send 100, .call (.streamSend 1 [6, 7, 8] true)]

theorem tx_buffered_exact_resent :
    ∃ books, machine.run (start History.smallConfig [1] ⟨[1], 1⟩ ⟨[2], 2⟩ false true) resentRun = some books ∧
      books.flight.conn.txBuffered = books.unsettled.card ∧ books.flight.conn.txBuffered = 3 :=
  exists_reached_of (·.flight.conn.txBuffered = 3) (by decide +kernel) fun _ completed count =>
    ⟨(tx_buffered_exact (by decide +kernel) completed).1, count⟩

/-- A probe timeout has five bytes sent twice, both packets are acknowledged, and four bytes are
accepted in between. -/
def probeRun : List Flight.Event :=
  [.call (.peerTransportParams History.peerLimits 20), .call (.streamSend 1 [1, 2, 3, 4, 5] false), .send 100,
    .probed 0, .send 100, .acked 0, .call (.streamSend 1 [6, 7, 8, 9] false), .acked 1]

theorem probe_copy_undercounts :
    ∃ books, machine.run (start History.smallConfig [1] ⟨[1], 1⟩ ⟨[2], 2⟩ false true) probeRun = some books ∧
      books.flight.conn.txBuffered = 0 ∧ ¬ books.flight.conn.txBuffered = books.unsettled.card := by
  decide +kernel

end Books

end Quiche.Connection
