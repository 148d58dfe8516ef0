import Quiche.H3.Process.Requests

namespace Quiche.H3

open Data

namespace Phase

variable {phase : Phase}

def started : Phase → Bool
  | .start => false
  | .body _ | .trailers _ => true

def seen : Phase → Bool
  | .start => false
  | .body data | .trailers data => data

def ended : Phase → Bool
  | .trailers data => data
  | .start | .body _ => false

def count : Phase → Nat
  | .start => 0
  | .body _ => 1
  | .trailers _ => 2

theorem count_headers {after : Phase} (moved : phase.next headersFrameTypeId = some after) :
    phase.count ≤ 1 ∧ after.count = phase.count + 1 := by
  cases phase <;> cases moved <;> exact ⟨by simp [count], rfl⟩

theorem count_other {after : Phase} {ty : Nat} (moved : phase.next ty = some after) (other : ty ≠ headersFrameTypeId) :
    after.count = phase.count := by
  by_cases unknown : Unknown ty
  · rw [next_unknown unknown] at moved
    cases moved
    rfl
  · cases phase with
    | start =>
      rw [next_start unknown, if_neg other] at moved
      cases moved
    | body data =>
      rw [next_body unknown, if_neg other] at moved
      obtain ⟨_, rfl⟩ : ty = dataFrameTypeId ∧ after = .body true := by grind
      rfl
    | trailers data =>
      rw [next_trailers unknown] at moved
      cases moved

end Phase

namespace Stream

variable {phase after : Phase} {stream other : Stream} {ty : Nat}

/-- The fields of the request stream are those of the phase. -/
structure Shows (stream : Stream) (phase : Phase) : Prop where
  request : stream.ty = some .request
  peer : stream.isLocal = false
  started : stream.remoteInitialized = phase.started
  seen : stream.dataReceived = phase.seen
  ended : stream.trailersReceived = phase.ended

section

variable (showing : stream.Shows phase)

include showing

theorem Shows.kept (kept : stream.Kept other) : other.Shows phase where
  request := kept.ty.trans showing.request
  peer := kept.isLocal.trans showing.peer
  started := kept.remoteInitialized.trans showing.started
  seen := kept.dataReceived.trans showing.seen
  ended := kept.trailersReceived.trans showing.ended

theorem Shows.checkFrame (ty : Nat) :
    stream.checkFrame ty = if ty = headersFrameTypeId then
        if !phase.started then .ok { stream with remoteInitialized := true }
        else if phase.ended then .error .frameUnexpected
        else .ok { stream with trailersReceived := phase.ended || phase.seen }
      else if ty = dataFrameTypeId then
        if !phase.started || phase.ended then .error .frameUnexpected
        else .ok { stream with dataReceived := true }
      else if ty ∈ [cancelPushFrameTypeId, settingsFrameTypeId, goawayFrameTypeId, maxPushFrameTypeId,
          priorityUpdateFrameRequestTypeId, priorityUpdateFramePushTypeId] then .error .frameUnexpected
      else .ok stream := by
  have asked : stream.checkFrame ty = stream.checkRequestFrame ty := by simp only [Stream.checkFrame, showing.request]
  have remote : ¬ stream.isLocal = true := by simp [showing.peer]
  rw [← showing.started, ← showing.seen, ← showing.ended, asked]
  exact if_neg remote

theorem Shows.unknown (unknown : Unknown ty) : stream.checkFrame ty = .ok stream := by
  simp only [Unknown, Frame.knownTypes, List.mem_cons, List.not_mem_nil, or_false, not_or] at unknown
  obtain ⟨data, headers, cancelPush, settings, _, goAway, maxPush, request, push⟩ := unknown
  rw [showing.checkFrame, if_neg headers, if_neg data, if_neg]
  simp only [List.mem_cons, List.not_mem_nil, or_false, not_or]
  exact ⟨cancelPush, settings, goAway, maxPush, request, push⟩

theorem Shows.pushPromise : stream.checkFrame pushPromiseFrameTypeId = .ok stream := by
  rw [showing.checkFrame]
  rfl

theorem Shows.moved (moved : phase.next ty = some after) :
    ∃ checked, stream.checkFrame ty = .ok checked ∧ checked.Shows after ∧
      checked.headersReceivedCount = stream.headersReceivedCount := by
  by_cases unknown : Unknown ty
  · rw [Phase.next_unknown unknown] at moved
    cases moved
    exact ⟨stream, showing.unknown unknown, showing, rfl⟩
  · cases phase with
    | start =>
      rw [Phase.next_start unknown] at moved
      obtain ⟨rfl, rfl⟩ : ty = headersFrameTypeId ∧ after = .body false := by grind
      exact ⟨{ stream with remoteInitialized := true }, showing.checkFrame _,
        ⟨showing.request, showing.peer, rfl, showing.seen, showing.ended⟩, rfl⟩
    | body data =>
      rw [Phase.next_body unknown] at moved
      by_cases header : ty = headersFrameTypeId
      · rw [if_pos header] at moved
        cases moved
        subst header
        exact ⟨{ stream with trailersReceived := data }, showing.checkFrame _,
          ⟨showing.request, showing.peer, showing.started, showing.seen, rfl⟩, rfl⟩
      · rw [if_neg header] at moved
        obtain ⟨rfl, rfl⟩ : ty = dataFrameTypeId ∧ after = .body true := by grind
        exact ⟨{ stream with dataReceived := true }, showing.checkFrame _,
          ⟨showing.request, showing.peer, showing.started, rfl, showing.ended⟩, rfl⟩
    | trailers data =>
      rw [Phase.next_trailers unknown] at moved
      cases moved

theorem Shows.refused (stuck : phase.next ty = none) :
    stream.checkFrame ty = .error .frameUnexpected ∨ ty = pushPromiseFrameTypeId ∨
      (phase = .trailers false ∧ (ty = headersFrameTypeId ∨ ty = dataFrameTypeId)) := by
  have known : ¬ Unknown ty := by
    intro unknown
    rw [Phase.next_unknown unknown] at stuck
    cases stuck
  rw [showing.checkFrame]
  by_cases header : ty = headersFrameTypeId
  · rw [if_pos header]
    cases phase with
    | start => rw [Phase.next_start known, if_pos header] at stuck; cases stuck
    | body data => rw [Phase.next_body known, if_pos header] at stuck; cases stuck
    | trailers data =>
      cases data with
      | true => exact .inl rfl
      | false => exact .inr (.inr ⟨rfl, .inl header⟩)
  · rw [if_neg header]
    by_cases part : ty = dataFrameTypeId
    · rw [if_pos part]
      cases phase with
      | start => exact .inl rfl
      | body data => rw [Phase.next_body known, if_neg header, if_pos part] at stuck; cases stuck
      | trailers data =>
        cases data with
        | true => exact .inl rfl
        | false => exact .inr (.inr ⟨rfl, .inr part⟩)
    · rw [if_neg part]
      simp only [Unknown, Frame.knownTypes, List.mem_cons, List.not_mem_nil, or_false, not_not] at known
      by_cases promise : ty = pushPromiseFrameTypeId
      · exact .inr (.inl promise)
      · left
        rw [if_pos]
        simp only [List.mem_cons, List.not_mem_nil, or_false]
        grind

end

end Stream

namespace Processor

variable {processor : Processor} {inquiry : Inquiry} {stream : Stream} {phase after : Phase}
  {streamId limit ty : Nat} {payload : List UInt8}

section Handlers

theorem unlessDone_error {call : Call (Nat × Event)} {error : Error} {last : Processor}
    (failed : call processor = .error (.error error) last) (other : error ≠ .done) :
    unlessDone call processor = .error (.error error) last := by
  rw [unlessDone, failed]
  cases error <;> first | rfl | exact absurd rfl other

theorem unlessDone_ok {call : Call (Nat × Event)} {event : Nat × Event} {last : Processor}
    (called : call processor = .ok event last) : unlessDone call processor = .ok (some event) last := by
  rw [unlessDone, called]

theorem countHeaders_ok (found : processor.streams streamId = some stream) (few : stream.headersReceivedCount ≤ 1) :
    countHeaders streamId processor = .ok () (processor.putStream streamId stream.incrementHeadersReceived) := by
  have less : ¬ (processor.isServer && stream.headersReceivedCount == 2) = true := by
    have other : stream.headersReceivedCount ≠ 2 := by omega
    simp [other]
  rw [countHeaders, get_bind, found]
  exact congrFun (if_neg less) processor

theorem countHeaders_refused (server : processor.isServer = true) (open_ : processor.localError = none)
    (found : processor.streams streamId = some stream) (many : stream.headersReceivedCount = 2) :
    ∃ last, countHeaders streamId processor = .error (.error .frameUnexpected) last := by
  have full : (processor.isServer && stream.headersReceivedCount == 2) = true := by simp [server, many]
  refine ⟨{ processor with localError := some .frameUnexpected }, ?_⟩
  rw [countHeaders, get_bind, found]
  exact (congrFun (if_pos full) processor).trans (refuse_run open_ _)

theorem processHeaders_ok (inquiry : Inquiry) {headers : List Header} (found : processor.streams streamId = some stream)
    (few : stream.headersReceivedCount ≤ 1)
    (decoded : Qpack.decode payload (processor.maxFieldSectionSize.getD (2 ^ 64 - 1)) = .ok headers) :
    ∃ event, processHeaders inquiry streamId payload processor =
      .ok event (processor.putStream streamId stream.incrementHeadersReceived) := by
  refine ⟨(streamId, .headers headers (!inquiry.streamFinished streamId)), ?_⟩
  rw [processHeaders, bind_ok (countHeaders_ok found few), get_bind]
  have read : Qpack.decode payload
    ((processor.putStream streamId stream.incrementHeadersReceived).maxFieldSectionSize.getD
      (2 ^ 64 - 1)) = .ok headers := decoded
  simp only [read]
  rfl

theorem processPushPromise_refused (streamId : Nat) (server : processor.isServer = true)
    (open_ : processor.localError = none) :
    ∃ last, processPushPromise streamId processor = .error (.error .frameUnexpected) last := by
  refine ⟨{ processor with localError := some .frameUnexpected }, ?_⟩
  rw [processPushPromise, get_bind]
  exact (congrFun (if_pos server) processor).trans (refuse_run open_ _)

end Handlers

/-- The server is open and waits for the next frame of the request stream, which is in the phase. -/
structure Serves (streamId limit : Nat) (phase : Phase) (processor : Processor) : Prop where
  server : processor.isServer = true
  open_ : processor.localError = none
  limit : processor.maxFieldSectionSize.getD (2 ^ 64 - 1) = limit
  stream : ∃ stream, processor.streams streamId = some stream ∧ stream.Shows phase ∧ stream.state = .frameType ∧
    stream.headersReceivedCount = phase.count

section Steps

section

variable (serves : Serves streamId limit phase processor)

include serves

theorem Serves.typed_exists (inquiry : Inquiry) {checked : Stream}
    (found : processor.streams streamId = some stream) (state : stream.state = .frameType)
    (taken : stream.checkFrame ty = .ok checked) (request : checked.ty = some .request) :
    ∃ typed, checked.Kept typed ∧ Reading streamId ty typed (processor.putStream streamId typed) ∧
      ∀ payload, receiveFrame inquiry streamId ty payload processor =
        receivePayload inquiry streamId ty payload (processor.putStream streamId typed) := by
  obtain ⟨typed, called, kept, payloadNext, frameType⟩ := Stream.setFrameType_ok state taken
  refine ⟨typed, kept, ⟨putStream_get streamId typed processor, ⟨kept.ty.trans request, payloadNext, frameType⟩,
    serves.open_⟩, fun payload => ?_⟩
  rw [receiveFrame, bind_ok (closing_ok (onStream_ok found called))]

theorem Serves.filtered (inquiry : Inquiry) {error : Error}
    (found : processor.streams streamId = some stream) (state : stream.state = .frameType)
    (refused : stream.checkFrame ty = .error error) :
    ∃ last, receiveFrame inquiry streamId ty payload processor = .error (.error error) last := by
  have failed := Stream.setFrameType_error state refused
  obtain ⟨last, closed⟩ := closing_error (onStream_error found failed) serves.open_
  exact ⟨last, bind_error closed _⟩

theorem Serves.put {last : Stream} (showing : last.Shows after)
    (state : last.state = .frameType) (counted : last.headersReceivedCount = after.count) :
    Serves streamId limit after (processor.putStream streamId last) :=
  ⟨serves.server, serves.open_, serves.limit, last, putStream_get streamId last processor, showing, state, counted⟩

end

theorem not_neverEmpty_of_moved (moved : phase.next ty = some after) : ty ∉ Stream.neverEmpty := by
  intro member
  have known : ¬ Unknown ty := by
    simp only [Stream.neverEmpty, List.mem_cons, List.not_mem_nil, or_false] at member
    rcases member with rfl | rfl | rfl | rfl <;> decide
  simp only [Stream.neverEmpty, List.mem_cons, List.not_mem_nil, or_false] at member
  cases phase with
  | start =>
    rw [Phase.next_start known] at moved
    rcases member with rfl | rfl | rfl | rfl <;> cases moved
  | body data =>
    rw [Phase.next_body known] at moved
    rcases member with rfl | rfl | rfl | rfl <;> cases moved
  | trailers data =>
    rw [Phase.next_trailers known] at moved
    cases moved

theorem kinds_of_moved (moved : phase.next ty = some after) :
    ty = headersFrameTypeId ∨ ty = dataFrameTypeId ∨ Unknown ty := by
  by_cases unknown : Unknown ty
  · exact .inr (.inr unknown)
  · cases phase with
    | start =>
      rw [Phase.next_start unknown] at moved
      grind
    | body data =>
      rw [Phase.next_body unknown] at moved
      grind
    | trailers data =>
      rw [Phase.next_trailers unknown] at moved
      cases moved

section

variable (serves : Serves streamId limit phase processor)

include serves

section

variable (inquiry : Inquiry)

theorem Serves.accepted
    (moved : phase.next ty = some after) (small : ty ≠ dataFrameTypeId → payload.length ≤ maxStateBufSize)
    (decodes : ty = headersFrameTypeId → ∃ headers, Qpack.decode payload limit = .ok headers) :
    ∃ event next, receiveFrame inquiry streamId ty payload processor = .ok event next ∧
      Serves streamId limit after next := by
  obtain ⟨stream, found, showing, state, counted⟩ := serves.stream
  obtain ⟨checked, taken, shown, count⟩ := showing.moved moved
  obtain ⟨typed, kept, reading, received⟩ := serves.typed_exists inquiry found state taken shown.request
  have showsTyped := shown.kept kept
  have countTyped : typed.headersReceivedCount = phase.count := by
    rw [kept.headersReceivedCount, count, counted]
  rw [received]
  rcases kinds_of_moved moved with rfl | rfl | unknown
  · obtain ⟨headers, decoded⟩ := decodes rfl
    obtain ⟨few, more⟩ := Phase.count_headers moved
    have holds : Stream.Holds headersFrameTypeId payload.length :=
      ⟨by decide, small (by decide), fun both => absurd both.1 (by decide)⟩
    obtain ⟨last, run, keptLast, stateLast⟩ := receivePayload_frame inquiry reading holds
      (Frame.fromBytes_plain .headers payload)
    rw [putStream_putStream] at run
    have countLast : last.headersReceivedCount = phase.count := keptLast.headersReceivedCount.trans countTyped
    rw [← serves.limit] at decoded
    obtain ⟨event, processed⟩ := processHeaders_ok inquiry
      (putStream_get streamId last processor) (by omega) decoded
    refine ⟨some event, _, run.trans (unlessDone_ok processed), ?_⟩
    rw [putStream_putStream]
    have showsLast := showsTyped.kept keptLast
    refine serves.put ⟨showsLast.request, showsLast.peer, showsLast.started, showsLast.seen, showsLast.ended⟩ stateLast ?_
    show min (last.headersReceivedCount + 1) usizeMax = _
    have large : 2 ≤ usizeMax := by decide
    omega
  · obtain ⟨last, run, keptLast, stateLast⟩ := receivePayload_data inquiry reading payload
    rw [putStream_putStream] at run
    refine ⟨none, _, run, serves.put (showsTyped.kept keptLast) stateLast ?_⟩
    rw [keptLast.headersReceivedCount, countTyped, Phase.count_other moved (by decide)]
  · have other : ty ≠ dataFrameTypeId := fun same => Phase.data_known (same ▸ unknown)
    have noHeaders : ty ≠ headersFrameTypeId := fun same => Phase.headers_known (same ▸ unknown)
    have holds : Stream.Holds ty payload.length :=
      ⟨other, small other, fun both => absurd both.1 (not_neverEmpty_of_moved moved)⟩
    obtain ⟨last, run, keptLast, stateLast⟩ := receivePayload_frame inquiry reading holds
      (Frame.fromBytes_plain (.unknown unknown) payload)
    rw [putStream_putStream] at run
    refine ⟨none, _, run, serves.put (showsTyped.kept keptLast) stateLast ?_⟩
    rw [keptLast.headersReceivedCount, countTyped, Phase.count_other moved noHeaders]

theorem Serves.long
    (moved : phase.next ty = some after) (other : ty ≠ dataFrameTypeId) (long : maxStateBufSize < payload.length) :
    ∃ last, receiveFrame inquiry streamId ty payload processor = .error (.error .excessiveLoad) last := by
  obtain ⟨stream, found, showing, state, _⟩ := serves.stream
  obtain ⟨checked, taken, shown, _⟩ := showing.moved moved
  obtain ⟨typed, kept, reading, received⟩ := serves.typed_exists inquiry found state taken shown.request
  rw [received]
  exact receivePayload_refused inquiry reading (Stream.setFramePayloadLen_long reading.typed other long)

theorem Serves.promise (small : payload.length ≤ maxStateBufSize) {id : Nat} {rest : List UInt8} (bound : id < 2 ^ 62)
    (spelled : payload = Octets.varint id ++ rest) :
    ∃ last, receiveFrame inquiry streamId pushPromiseFrameTypeId payload processor =
      .error (.error .frameUnexpected) last := by
  obtain ⟨stream, found, showing, state, _⟩ := serves.stream
  obtain ⟨typed, kept, reading, received⟩ := serves.typed_exists inquiry found state showing.pushPromise showing.request
  have populated : payload.length ≠ 0 := by
    rw [spelled, List.length_append]
    have positive := (Octets.spells_varint bound).length_pos
    omega
  have holds : Stream.Holds pushPromiseFrameTypeId payload.length := ⟨by decide, small, fun both => populated both.2⟩
  have parsed : Frame.fromBytes pushPromiseFrameTypeId payload.length payload = .ok (.pushPromise id rest) := by
    rw [spelled, Frame.fromBytes_rest .pushPromise (Octets.spells_varint bound), if_pos rfl]
  obtain ⟨last, run, _, _⟩ := receivePayload_frame inquiry reading holds parsed
  rw [putStream_putStream] at run
  have server : (processor.putStream streamId last).isServer = true := serves.server
  obtain ⟨closed, refused⟩ := processPushPromise_refused streamId server serves.open_
  exact ⟨closed, (received payload).trans (run.trans (unlessDone_error refused (by decide)))⟩

theorem Serves.broken
    (broken : ¬ (payload.length ≤ maxStateBufSize ∧ ∃ id rest, id < 2 ^ 62 ∧ payload = Octets.varint id ++ rest)) :
    ∃ error last, error ≠ .frameUnexpected ∧
      receiveFrame inquiry streamId pushPromiseFrameTypeId payload processor = .error (.error error) last := by
  obtain ⟨stream, found, showing, state, _⟩ := serves.stream
  obtain ⟨typed, kept, reading, received⟩ := serves.typed_exists inquiry found state showing.pushPromise showing.request
  rw [received]
  by_cases small : payload.length ≤ maxStateBufSize
  · by_cases empty : payload.length = 0
    · have refused := Stream.setFramePayloadLen_empty reading.typed (by decide) (by decide)
      rw [← empty] at refused
      obtain ⟨last, failed⟩ := receivePayload_refused inquiry reading refused
      exact ⟨.frameError, last, by decide, failed⟩
    · have holds : Stream.Holds pushPromiseFrameTypeId payload.length := ⟨by decide, small, fun both => empty both.2⟩
      have unparsed : Frame.fromBytes pushPromiseFrameTypeId payload.length payload =
        .error (.error .bufferTooShort) := by
        rcases Frame.fromBytes_rest_cases .pushPromise payload.length payload with
          short | ⟨bytes, rest, id, rfl, spelled⟩
        · exact short
        · rw [Frame.fromBytes_rest .pushPromise spelled, if_neg]
          intro least
          exact broken ⟨small, id, rest, spelled.lt, by rw [spelled.eq_varint least]⟩
      obtain ⟨last, failed⟩ := receivePayload_unparsed inquiry reading holds unparsed
      exact ⟨.bufferTooShort, last, by decide, failed⟩
  · have long : maxStateBufSize < payload.length := by omega
    obtain ⟨last, failed⟩ := receivePayload_refused inquiry reading
      (Stream.setFramePayloadLen_long reading.typed (by decide) long)
    exact ⟨.excessiveLoad, last, by decide, failed⟩

end

end

section

variable (serves : Serves streamId limit (.trailers false) processor) (inquiry : Inquiry) (payload : List UInt8)

include serves

theorem Serves.lateData : ∃ next, receiveFrame inquiry streamId dataFrameTypeId payload processor = .ok none next := by
  obtain ⟨stream, found, showing, state, _⟩ := serves.stream
  have taken : stream.checkFrame dataFrameTypeId = .ok { stream with dataReceived := true } := showing.checkFrame _
  obtain ⟨typed, kept, reading, received⟩ := serves.typed_exists inquiry found state taken showing.request
  obtain ⟨last, run, _, _⟩ := receivePayload_data inquiry reading payload
  exact ⟨_, (received payload).trans run⟩

theorem Serves.lateHeaders : ∃ last, receiveFrame inquiry streamId headersFrameTypeId payload processor =
      .error (.error (if payload.length ≤ maxStateBufSize then .frameUnexpected else .excessiveLoad)) last := by
  obtain ⟨stream, found, showing, state, counted⟩ := serves.stream
  have taken : stream.checkFrame headersFrameTypeId = .ok { stream with trailersReceived := false } :=
    showing.checkFrame _
  obtain ⟨typed, kept, reading, received⟩ := serves.typed_exists inquiry found state taken showing.request
  rw [received]
  by_cases small : payload.length ≤ maxStateBufSize
  · have holds : Stream.Holds headersFrameTypeId payload.length :=
      ⟨by decide, small, fun both => absurd both.1 (by decide)⟩
    obtain ⟨last, run, keptLast, _⟩ := receivePayload_frame inquiry reading holds
      (Frame.fromBytes_plain .headers payload)
    rw [putStream_putStream] at run
    have many : last.headersReceivedCount = 2 := by
      rw [keptLast.headersReceivedCount, kept.headersReceivedCount]
      exact counted
    have server : (processor.putStream streamId last).isServer = true := serves.server
    obtain ⟨closed, refused⟩ := countHeaders_refused server serves.open_
      (putStream_get streamId last processor) many
    rw [if_pos small, run]
    exact ⟨closed, unlessDone_error (bind_error refused _) (by decide)⟩
  · have long : maxStateBufSize < payload.length := by omega
    rw [if_neg small]
    exact receivePayload_refused inquiry reading (Stream.setFramePayloadLen_long reading.typed (by decide) long)

end

end Steps

end Processor

end Quiche.H3
