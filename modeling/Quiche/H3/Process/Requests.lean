import Quiche.H3.Message
import Quiche.H3.Process

namespace Quiche.H3

open Data

namespace Stream

variable {stream next checked : Stream} {ty : Nat} {payload : List UInt8}

/-- What decides which frames are accepted is the same. -/
structure Kept (stream next : Stream) : Prop where
  ty : next.ty = stream.ty
  isLocal : next.isLocal = stream.isLocal
  remoteInitialized : next.remoteInitialized = stream.remoteInitialized
  dataReceived : next.dataReceived = stream.dataReceived
  trailersReceived : next.trailersReceived = stream.trailersReceived
  headersReceivedCount : next.headersReceivedCount = stream.headersReceivedCount

theorem Kept.trans {last : Stream} (first : stream.Kept next) (second : next.Kept last) : stream.Kept last where
  ty := second.ty.trans first.ty
  isLocal := second.isLocal.trans first.isLocal
  remoteInitialized := second.remoteInitialized.trans first.remoteInitialized
  dataReceived := second.dataReceived.trans first.dataReceived
  trailersReceived := second.trailersReceived.trans first.trailersReceived
  headersReceivedCount := second.headersReceivedCount.trans first.headersReceivedCount

theorem setFrameType_ok (state : stream.state = .frameType) (taken : stream.checkFrame ty = .ok checked) :
    ∃ next, setFrameType ty stream = .ok () next ∧ checked.Kept next ∧ next.state = .framePayloadLen ∧
      next.frameType = some ty := by
  have expected : expect .frameType stream = .ok () stream := congrFun (if_pos state) stream
  refine ⟨{ checked with
    frameType := some ty, stateBuf := resize checked.stateBuf 1, state := .framePayloadLen,
    stateOff := 0, stateLen := 1 },
    ?_, ⟨rfl, rfl, rfl, rfl, rfl, rfl⟩, rfl, rfl⟩
  rw [setFrameType, bind_ok expected, get_bind, taken]
  rfl

theorem setFrameType_error {error : Error} (state : stream.state = .frameType)
    (refused : stream.checkFrame ty = .error error) : setFrameType ty stream = .error (.error error) stream := by
  have expected : expect .frameType stream = .ok () stream := congrFun (if_pos state) stream
  rw [setFrameType, bind_ok expected, get_bind, refused]
  rfl

/-- The request stream has read the frame type and waits for the length. -/
structure Typed (ty : Nat) (stream : Stream) : Prop where
  request : stream.ty = some .request
  state : stream.state = .framePayloadLen
  frameType : stream.frameType = some ty

theorem setFramePayloadLen_run (typed : Typed ty stream) (len : Nat) :
    setFramePayloadLen len stream = (if stream.frameType = some dataFrameTypeId then stateTransition .data len false
        else if stream.frameType.any (neverEmpty.contains ·) && len == 0 then throw (.error .frameError)
        else stateTransition .framePayload len true : Action Unit) stream := by
  have expected : expect .framePayloadLen stream = .ok () stream := congrFun (if_pos typed.state) stream
  rw [setFramePayloadLen, bind_ok expected, get_bind, typed.request]

theorem setFramePayloadLen_data (typed : Typed dataFrameTypeId stream) (len : Nat) :
    ∃ next, setFramePayloadLen len stream = .ok () next ∧ stream.Kept next ∧ next.stateLen = len := by
  refine ⟨{ stream with state := .data, stateOff := 0, stateLen := len }, ?_, ⟨rfl, rfl, rfl, rfl, rfl, rfl⟩, rfl⟩
  rw [setFramePayloadLen_run typed, if_pos typed.frameType]
  rfl

theorem neverEmpty_eq (typed : Typed ty stream) :
    stream.frameType.any (neverEmpty.contains ·) = neverEmpty.contains ty := by
  rw [typed.frameType]
  rfl

/-- A payload of the length is read whole into the state buffer. -/
structure Holds (ty len : Nat) : Prop where
  notData : ty ≠ dataFrameTypeId
  small : len ≤ maxStateBufSize
  populated : ¬ (ty ∈ neverEmpty ∧ len = 0)

theorem setFramePayloadLen_ok (typed : Typed ty stream) {len : Nat} (holds : Holds ty len) :
    ∃ next, setFramePayloadLen len stream = .ok () next ∧ stream.Kept next ∧ next.frameType = some ty ∧
      next.stateBuf.length = len ∧ next.stateOff = 0 ∧ next.stateLen = len := by
  have notData : ¬ stream.frameType = some dataFrameTypeId := by
    rw [typed.frameType]
    simpa using holds.notData
  have populated : ¬ (stream.frameType.any (neverEmpty.contains ·) && len == 0) = true := by
    rw [neverEmpty_eq typed]
    simpa using holds.populated
  have small : (true && decide (len > maxStateBufSize)) = false := by simpa using holds.small
  refine ⟨{ stream with
    stateBuf := resize stream.stateBuf len, state := .framePayload, stateOff := 0, stateLen := len }, ?_,
    ⟨rfl, rfl, rfl, rfl, rfl, rfl⟩, typed.frameType, ?_, rfl, rfl⟩
  · rw [setFramePayloadLen_run typed, if_neg notData, if_neg populated, stateTransition, small]
    rfl
  · simp only [resize, List.length_append, List.length_take, List.length_replicate]
    omega

theorem setFramePayloadLen_empty (typed : Typed ty stream) (member : ty ∈ neverEmpty) (notData : ty ≠ dataFrameTypeId) :
    setFramePayloadLen 0 stream = .error (.error .frameError) stream := by
  have other : ¬ stream.frameType = some dataFrameTypeId := by
    rw [typed.frameType]
    simpa using notData
  have empty : (stream.frameType.any (neverEmpty.contains ·) && 0 == 0) = true := by
    rw [neverEmpty_eq typed]
    simpa using member
  rw [setFramePayloadLen_run typed, if_neg other, if_pos empty]
  rfl

theorem setFramePayloadLen_long (typed : Typed ty stream) {len : Nat} (notData : ty ≠ dataFrameTypeId)
    (long : maxStateBufSize < len) : setFramePayloadLen len stream = .error (.error .excessiveLoad) stream := by
  have other : ¬ stream.frameType = some dataFrameTypeId := by
    rw [typed.frameType]
    simpa using notData
  have populated : ¬ (stream.frameType.any (neverEmpty.contains ·) && len == 0) = true := by
    have positive : len ≠ 0 := by omega
    simp [positive]
  have large : (true && decide (len > maxStateBufSize)) = true := by simpa using long
  rw [setFramePayloadLen_run typed, if_neg other, if_neg populated, stateTransition, if_pos large]

theorem fill_run (length : stream.stateBuf.length = payload.length) (off : stream.stateOff = 0) :
    Processor.fill payload stream = .ok () { stream with stateBuf := payload, stateOff := payload.length } := by
  have behind : stream.stateBuf.drop payload.length = [] := by
    rw [← length]
    exact List.drop_length
  show EStateM.Result.ok () { stream with
    stateBuf := stream.stateBuf.take stream.stateOff ++ payload ++ stream.stateBuf.drop (stream.stateOff + payload.length)
    stateOff := stream.stateOff + payload.length } = _
  rw [off, List.take_zero, List.nil_append, Nat.zero_add, behind, List.append_nil]

theorem tryConsumeFrame_ok {frame : Frame} (typed : stream.frameType = some ty)
    (parsed : Frame.fromBytes ty stream.stateLen stream.stateBuf = .ok frame) :
    ∃ next, tryConsumeFrame stream = .ok (frame, stream.stateLen) next ∧ stream.Kept next ∧ next.state = .frameType := by
  refine ⟨{ stream.resetDataEvent with
    stateBuf := resize stream.stateBuf 1, state := .frameType, stateOff := 0, stateLen := 1 }, ?_,
    ⟨rfl, rfl, rfl, rfl, rfl, rfl⟩, rfl⟩
  have kept : stream.resetDataEvent.frameType = some ty := typed
  have read : Frame.fromBytes ty stream.resetDataEvent.stateLen stream.resetDataEvent.stateBuf = .ok frame := parsed
  have consumed : tryConsumeFrame stream =
      (stateTransition .frameType 1 true >>= fun _ => pure (frame, stream.resetDataEvent.stateLen))
        stream.resetDataEvent := by
    rw [tryConsumeFrame, modify_bind, get_bind]
    simp only [kept, read]
  rw [consumed]
  rfl

theorem tryConsumeFrame_error {failure : Failure} (typed : stream.frameType = some ty)
    (failed : Frame.fromBytes ty stream.stateLen stream.stateBuf = .error failure) :
    ∃ next, tryConsumeFrame stream = .error failure next := by
  refine ⟨stream.resetDataEvent, ?_⟩
  have kept : stream.resetDataEvent.frameType = some ty := typed
  have read : Frame.fromBytes ty stream.resetDataEvent.stateLen stream.resetDataEvent.stateBuf = .error failure :=
    failed
  rw [tryConsumeFrame, modify_bind, get_bind]
  simp only [kept, read]
  rfl

end Stream

namespace Processor

variable {Value : Type} {processor next : Processor} {stream after : Stream} {streamId ty : Nat} {payload : List UInt8}
  {inquiry : Inquiry} {call : Call Value}

section Calls

theorem putStream_get (streamId : Nat) (stream : Stream) (processor : Processor) :
    (processor.putStream streamId stream).streams streamId = some stream := by
  simp [putStream]

theorem putStream_putStream (streamId : Nat) (stream after : Stream) (processor : Processor) :
    (processor.putStream streamId stream).putStream streamId after = processor.putStream streamId after := by
  simp [putStream]

theorem onStream_ok {action : Stream.Action Value} {value : Value} (found : processor.streams streamId = some stream)
    (called : action stream = .ok value after) :
    onStream streamId action processor = .ok value (processor.putStream streamId after) := by
  simp only [onStream, found, called]

theorem onStream_error {action : Stream.Action Value} {failure : Failure}
    (found : processor.streams streamId = some stream) (called : action stream = .error failure after) :
    onStream streamId action processor = .error failure (processor.putStream streamId after) := by
  simp only [onStream, found, called]

theorem closing_ok {value : Value} (called : call processor = .ok value next) :
    closing call processor = .ok value next := by
  simp only [closing, called]

theorem refuse_run (open_ : processor.localError = none) (error : Error) :
    (refuse error : Call Value) processor = .error (.error error) { processor with localError := some error } := by
  have closed : close error processor = .ok () { processor with localError := some error } := by
    rw [close, open_]
  exact bind_ok closed _

theorem closing_error {error : Error} (called : call processor = .error (.error error) next)
    (open_ : next.localError = none) : ∃ last, closing call processor = .error (.error error) last := by
  simp only [closing, called]
  exact ⟨_, refuse_run open_ error⟩

end Calls

section Frames

/-- The open connection has the stream, which has read the frame type. -/
structure Reading (streamId ty : Nat) (stream : Stream) (processor : Processor) : Prop where
  found : processor.streams streamId = some stream
  typed : stream.Typed ty
  open_ : processor.localError = none

section

variable (inquiry : Inquiry)

theorem receivePayload_data (reading : Reading streamId dataFrameTypeId stream processor)
    (payload : List UInt8) : ∃ last, receivePayload inquiry streamId dataFrameTypeId payload processor =
        .ok none (processor.putStream streamId last) ∧ stream.Kept last ∧ last.state = .frameType := by
  obtain ⟨sized, called, kept, _⟩ := Stream.setFramePayloadLen_data reading.typed payload.length
  have consumed : ∃ last, consumeData sized = .ok () last ∧ sized.Kept last ∧ last.state = .frameType :=
    ⟨{ sized with stateBuf := Stream.resize sized.stateBuf 1, state := .frameType, stateOff := 0, stateLen := 1 }, rfl,
      ⟨rfl, rfl, rfl, rfl, rfl, rfl⟩, rfl⟩
  obtain ⟨last, taken, keptLast, state⟩ := consumed
  refine ⟨last, ?_, kept.trans keptLast, state⟩
  rw [receivePayload, bind_ok (closing_ok (onStream_ok reading.found called)), if_pos rfl,
    bind_ok (onStream_ok (putStream_get streamId sized processor) taken), putStream_putStream]
  rfl

theorem receivePayload_frame (reading : Reading streamId ty stream processor)
    (holds : Stream.Holds ty payload.length) {frame : Frame}
    (parsed : Frame.fromBytes ty payload.length payload = .ok frame) :
    ∃ last, receivePayload inquiry streamId ty payload processor =
        unlessDone (processFrame inquiry streamId frame) (processor.putStream streamId last) ∧
      stream.Kept last ∧ last.state = .frameType := by
  obtain ⟨sized, called, kept, typed, length, off, len⟩ := Stream.setFramePayloadLen_ok reading.typed holds
  have filled := Stream.fill_run length off
  obtain ⟨full, made⟩ : ∃ full, full = { sized with stateBuf := payload, stateOff := payload.length } := ⟨_, rfl⟩
  rw [← made] at filled
  have keptFull : sized.Kept full := by
    rw [made]
    exact ⟨rfl, rfl, rfl, rfl, rfl, rfl⟩
  have typedFull : full.frameType = some ty := by rw [made]; exact typed
  have parsedFull : Frame.fromBytes ty full.stateLen full.stateBuf = .ok frame := by
    rw [made]
    show Frame.fromBytes ty sized.stateLen payload = _
    rw [len, parsed]
  obtain ⟨last, consumed, keptLast, state⟩ := Stream.tryConsumeFrame_ok typedFull parsedFull
  refine ⟨last, ?_, (kept.trans keptFull).trans keptLast, state⟩
  rw [receivePayload, bind_ok (closing_ok (onStream_ok reading.found called)), if_neg holds.notData,
    bind_ok (onStream_ok (putStream_get streamId sized processor) filled), putStream_putStream,
    bind_ok (closing_ok (onStream_ok (putStream_get streamId full processor) consumed)), putStream_putStream]

theorem receivePayload_unparsed (reading : Reading streamId ty stream processor)
    (holds : Stream.Holds ty payload.length) {error : Error}
    (refused : Frame.fromBytes ty payload.length payload = .error (.error error)) :
    ∃ last, receivePayload inquiry streamId ty payload processor = .error (.error error) last := by
  obtain ⟨sized, called, kept, typed, length, off, len⟩ := Stream.setFramePayloadLen_ok reading.typed holds
  have filled := Stream.fill_run length off
  obtain ⟨full, made⟩ : ∃ full, full = { sized with stateBuf := payload, stateOff := payload.length } := ⟨_, rfl⟩
  rw [← made] at filled
  have typedFull : full.frameType = some ty := by rw [made]; exact typed
  have failedFull : Frame.fromBytes ty full.stateLen full.stateBuf = .error (.error error) := by
    rw [made]
    show Frame.fromBytes ty sized.stateLen payload = _
    rw [len, refused]
  obtain ⟨broken, failed⟩ := Stream.tryConsumeFrame_error typedFull failedFull
  obtain ⟨last, closed⟩ := closing_error (onStream_error (putStream_get streamId full processor) failed) reading.open_
  refine ⟨last, ?_⟩
  rw [receivePayload, bind_ok (closing_ok (onStream_ok reading.found called)), if_neg holds.notData,
    bind_ok (onStream_ok (putStream_get streamId sized processor) filled), putStream_putStream]
  exact bind_error closed _

theorem receivePayload_refused (reading : Reading streamId ty stream processor) {error : Error}
    {broken : Stream} (refused : Stream.setFramePayloadLen payload.length stream = .error (.error error) broken) :
    ∃ last, receivePayload inquiry streamId ty payload processor = .error (.error error) last := by
  obtain ⟨last, closed⟩ := closing_error (onStream_error reading.found refused) reading.open_
  exact ⟨last, bind_error closed _⟩

end

end Frames

end Processor

end Quiche.H3
