import Mathlib.Logic.Relation
import Quiche.H3.Process.Requests
import Quiche.H3.Readable

namespace Quiche.H3

open Data

def Error.isSpared : Error → Bool
  | .done | .streamBlocked | .transportError _ => true
  | _ => false

theorem ofTransport_spared (error : Quiche.Error) : (Error.ofTransport error).isSpared = true := by
  cases error <;> rfl

section Reports

variable {State Value Result : Type} (localError : State → Option Error)

/-- The open connection is closed with the code of the error. -/
structure Answered (before after : State) (error : Error) : Prop where
  open_ : localError before = none
  code : (localError after).map Error.toWire = some error.toWire

/-- A call that closes the connection with the code of an error that it returns. A connection that was closed
stays so. -/
structure Reports (call : EStateM Failure State Value) (state : State) : Prop where
  lasting : localError (after (call state)) = none → localError state = none
  answers : ∀ error next, call state = .error (.error error) next → error.isSpared = false →
    Answered localError state next error

variable {localError} {state middle : State}

variable {call other : EStateM Failure State Value}

theorem reports_ok {value : Value} (called : call state = .ok value middle)
    (lasting : localError middle = none → localError state = none) : Reports localError call state := by
  constructor
  · rw [called]
    exact lasting
  · intro error next failed
    cases called.symm.trans failed

theorem reports_error {failure : Failure}
    (called : call state = .error failure middle) (lasting : localError middle = none → localError state = none)
    (spared : ∀ error, failure = .error error → error.isSpared = true) : Reports localError call state := by
  constructor
  · rw [called]
    exact lasting
  · intro error next failed loud
    cases called.symm.trans failed
    rw [spared error rfl] at loud
    cases loud

theorem Reports.of_eq (reports : Reports localError other middle)
    (same : call state = other middle) (lasting : localError middle = none → localError state = none) :
    Reports localError call state := by
  constructor
  · rw [same]
    exact fun open_ => lasting (reports.lasting open_)
  · intro error next failed loud
    obtain ⟨open_, code⟩ := reports.answers error next (same.symm.trans failed) loud
    exact ⟨lasting open_, code⟩

theorem Reports.bind {next : Value → EStateM Failure State Result} (first : Reports localError call state)
    (second : ∀ value middle, call state = .ok value middle → Reports localError (next value) middle) :
    Reports localError (call >>= next) state := by
  obtain ⟨lasting, answers⟩ := first
  cases called : call state with
  | ok value middle =>
    rw [called] at lasting
    exact (second value middle called).of_eq (bind_ok called next) lasting
  | error failure middle =>
    rw [called] at lasting
    constructor
    · rw [bind_error called]
      exact lasting
    · intro error last failed
      rw [bind_error called] at failed
      cases failed
      exact answers error middle called

theorem reports_pure (value : Value) (state : State) :
    Reports localError (pure value : EStateM Failure State Value) state := reports_ok rfl id

theorem reports_throw {failure : Failure} (spared : ∀ error, failure = .error error → error.isSpared = true)
    (state : State) : Reports localError (throw failure : EStateM Failure State Value) state :=
  reports_error rfl id spared

theorem reports_panic (state : State) : Reports localError (throw .panic : EStateM Failure State Value) state :=
  reports_throw (fun _ failed => by cases failed) state

theorem reports_get (state : State) : Reports localError (get : EStateM Failure State State) state := reports_ok rfl id

theorem reports_modify {change : State → State} (kept : localError (change state) = localError state) :
    Reports localError (modify change : EStateM Failure State PUnit) state :=
  reports_ok rfl fun open_ => kept.symm.trans open_

theorem Reports.ite {condition : Prop} [Decidable condition]
    (positive : condition → Reports localError call state) (negative : ¬ condition → Reports localError other state) :
    Reports localError (if condition then call else other) state := by
  split
  · rename_i holds
    exact positive holds
  · rename_i fails
    exact negative fails

end Reports

namespace Processor

variable {Value : Type} {processor : Processor} {inquiry : Inquiry} {streamId : Nat}

section Frames

/-- The id of a GOAWAY frame that a client receives is not that of a request. -/
structure Misdirects (processor : Processor) (id : Nat) : Prop where
  client : processor.isServer = false
  foreign : id % 4 ≠ 0
  open_ : processor.localError = none

theorem spared_done (error : Error) (is : Failure.error .done = .error error) : error.isSpared = true := by
  cases is
  rfl

theorem reports_closed {wire error : Error} (closed : processor.localError ≠ none) :
    Reports localError (refuseWith wire error : Call Value) processor := by
  obtain ⟨reason, closed⟩ := Option.ne_none_iff_exists'.mp closed
  have refused : close wire processor = .error (.error .done) processor := by rw [close, closed]
  exact reports_error (bind_error refused _) id spared_done

theorem reports_refuseWith {wire error : Error} (same : wire.toWire = error.toWire) (processor : Processor) :
    Reports localError (refuseWith wire error : Call Value) processor := by
  by_cases open_ : processor.localError = none
  · have closed : close wire processor = .ok () { processor with localError := some wire } := by rw [close, open_]
    have refused : (refuseWith wire error : Call Value) processor =
        .error (.error error) { processor with localError := some wire } := bind_ok closed _
    constructor
    · exact fun _ => open_
    · intro other next failed _
      cases refused.symm.trans failed
      exact ⟨open_, congrArg some same⟩
  · exact reports_closed open_

theorem reports_refuse (error : Error) (processor : Processor) :
    Reports localError (refuse error : Call Value) processor := reports_refuseWith rfl processor

theorem reports_done (processor : Processor) : Reports localError (done : Call Value) processor :=
  reports_throw spared_done processor

theorem reports_processSettings (settings : Settings) : Reports localError (processSettings inquiry settings) processor :=
  .bind (reports_modify rfl) fun _ middle _ =>
    .ite (fun _ => reports_refuse _ middle) fun _ => reports_done middle

theorem reports_countHeaders : Reports localError (countHeaders streamId) processor := by
  refine .bind (reports_get processor) fun seen middle reached => ?_
  cases reached
  split
  · exact reports_pure () processor
  · exact .ite (fun _ => reports_refuse _ processor) fun _ => reports_modify rfl

theorem reports_processHeaders (headerBlock : List UInt8) :
    Reports localError (processHeaders inquiry streamId headerBlock) processor := by
  refine .bind reports_countHeaders fun _ middle _ => .bind (reports_get middle) fun seen last reached => ?_
  cases reached
  split
  · exact reports_pure _ middle
  · exact reports_refuse _ middle
  · exact reports_refuse _ middle
  · exact reports_panic middle

theorem reports_processGoAway {id : Nat} (well : ¬ processor.Misdirects id) :
    Reports localError (processGoAway id) processor := by
  refine .bind (reports_get processor) fun seen middle reached => ?_
  cases reached
  refine .ite (fun foreign => ?_) fun _ => .ite (fun _ => reports_refuse _ processor) fun _ =>
    .bind (reports_modify rfl) fun _ last _ => reports_pure _ last
  have client : processor.isServer = false ∧ id % 4 ≠ 0 := by simpa using foreign
  exact reports_closed fun open_ => well ⟨client.1, client.2, open_⟩

theorem reports_processMaxPushId (pushId : Nat) : Reports localError (processMaxPushId pushId) processor := by
  refine .bind (reports_get processor) fun seen middle reached => ?_
  cases reached
  exact .ite (fun _ => reports_refuse _ processor) fun _ => .ite (fun _ => reports_refuse _ processor) fun _ =>
    .bind (reports_modify rfl) fun _ last _ => reports_done last

theorem reports_processPushPromise : Reports localError (processPushPromise streamId) processor := by
  refine .bind (reports_get processor) fun seen middle reached => ?_
  exact .ite (fun _ => reports_refuse _ middle) fun _ => .ite (fun _ => reports_refuse _ middle) fun _ =>
    reports_done middle

theorem reports_processPriorityUpdateRequest (elementId : Nat) (value : List UInt8) :
    Reports localError (processPriorityUpdateRequest inquiry elementId value) processor := by
  refine .bind (reports_get processor) fun seen middle reached => ?_
  cases reached
  refine .ite (fun _ => reports_refuse _ processor) fun _ => .ite (fun _ => reports_refuse _ processor) fun _ =>
    .ite (fun _ => reports_refuse _ processor) fun _ => .ite (fun _ => reports_done processor) fun _ => ?_
  refine .bind (reports_modify rfl) fun _ last _ => ?_
  exact .ite (fun _ => reports_pure _ last) fun _ => reports_done last

theorem reports_processPriorityUpdatePush (elementId : Nat) :
    Reports localError (processPriorityUpdatePush elementId) processor := by
  refine .bind (reports_get processor) fun seen middle reached => ?_
  exact .ite (fun _ => reports_refuse _ middle) fun _ => .ite (fun _ => reports_refuse _ middle) fun _ =>
    reports_done middle

theorem reports_processFrame {frame : Frame} (well : ∀ id, frame = .goAway id → ¬ processor.Misdirects id) :
    Reports localError (processFrame inquiry streamId frame) processor := by
  cases frame with
  | settings settings => exact reports_processSettings settings
  | headers headerBlock => exact reports_processHeaders headerBlock
  | goAway id => exact reports_processGoAway (well id rfl)
  | maxPushId pushId => exact reports_processMaxPushId pushId
  | pushPromise pushId headerBlock => exact reports_processPushPromise
  | priorityUpdateRequest elementId value => exact reports_processPriorityUpdateRequest elementId value
  | priorityUpdatePush elementId value => exact reports_processPriorityUpdatePush elementId
  | data payload => exact reports_done processor
  | cancelPush pushId => exact reports_done processor
  | unknown rawType payload => exact reports_done processor

theorem processGoAway_misdirected {id : Nat} (misdirects : processor.Misdirects id) :
    processGoAway id processor = .error (.error .idError) { processor with localError := some .frameUnexpected } := by
  obtain ⟨client, foreign, open_⟩ := misdirects
  have closed : close .frameUnexpected processor = .ok () { processor with localError := some .frameUnexpected } := by
    rw [close, open_]
  have taken : (!processor.isServer && id % 4 != 0) = true := by simp [client, foreign]
  rw [processGoAway, get_bind]
  exact (congrFun (if_pos taken) processor).trans (bind_ok closed _)

end Frames

section Streams

theorem onStream_localError (streamId : Nat) (action : Stream.Action Value) (processor : Processor) :
    (after (onStream streamId action processor)).localError = processor.localError := by
  unfold onStream
  cases processor.streams streamId with
  | none => rfl
  | some stream =>
    dsimp only
    cases action stream <;> rfl

theorem reports_onStream {action : Stream.Action Value}
    (spared : ∀ stream error next, action stream = .error (.error error) next → error.isSpared = true)
    (streamId : Nat) (processor : Processor) : Reports localError (onStream streamId action) processor := by
  cases found : processor.streams streamId with
  | none => exact reports_error (by simp only [onStream, found]) id spared_done
  | some stream =>
    cases called : action stream with
    | ok value last => exact reports_ok (onStream_ok found called) id
    | error failure last =>
      refine reports_error (onStream_error found called) id fun error is => ?_
      cases is
      exact spared stream error last called

theorem reports_closing {call : Call Value} (kept : (after (call processor)).localError = processor.localError) :
    Reports localError (closing call) processor := by
  cases called : call processor with
  | ok value next =>
    rw [called] at kept
    exact reports_ok (closing_ok called) kept.symm.trans
  | error failure next =>
    rw [called] at kept
    cases failure with
    | error error => exact (reports_refuse error next).of_eq (by simp only [closing, called]) kept.symm.trans
    | panic => exact reports_error (by simp only [closing, called]; rfl) kept.symm.trans fun _ is => by cases is

theorem reports_unlessDone {call : Call (Nat × Event)} (reports : Reports localError call processor) :
    Reports localError (unlessDone call) processor := by
  obtain ⟨lasting, answers⟩ := reports
  cases called : call processor with
  | ok event next =>
    rw [called] at lasting
    exact reports_ok (by simp only [unlessDone, called]; rfl) lasting
  | error failure next =>
    rw [called] at lasting
    by_cases nothing : failure = .error .done
    · subst nothing
      exact reports_ok (by simp only [unlessDone, called]; rfl) lasting
    · have same : unlessDone call processor = .error failure next := by
        simp only [unlessDone, called]
      constructor
      · rw [same]
        exact lasting
      · intro error last failed
        cases same.symm.trans failed
        exact answers error next called

end Streams

end Processor

namespace Reader

variable {Conn Value : Type} {transport : Transport Conn} {reader : Reader Conn} {streamId : Nat}

abbrev localError (reader : Reader Conn) : Option Error := reader.processor.localError

section Turns

theorem reports_process {call : Processor.Call Value} (reports : Reports Processor.localError call reader.processor) :
    Reports localError (process call) reader := by
  obtain ⟨lasting, answers⟩ := reports
  cases called : call reader.processor with
  | ok value processor =>
    rw [called] at lasting
    exact reports_ok (by simp only [process, called]; rfl) lasting
  | error failure processor =>
    rw [called] at lasting
    have same : process call reader = .error failure { reader with processor } := by simp only [process, called]
    constructor
    · rw [same]
      exact lasting
    · intro error next failed loud
      cases same.symm.trans failed
      obtain ⟨open_, code⟩ := answers error processor called loud
      exact ⟨open_, code⟩

theorem reports_refused (error : Error) (reader : Reader Conn) :
    Reports localError (process (Processor.refuse error : Processor.Call Value)) reader :=
  reports_process (Processor.reports_refuse error reader.processor)

theorem reports_borrowed (streamId : Nat) (reader : Reader Conn) : Reports localError (borrowed streamId) reader :=
  reports_process (Processor.reports_onStream (fun _ _ _ failed => by cases failed) streamId reader.processor)

theorem reports_resetDataEvent (streamId : Nat) (reader : Reader Conn) :
    Reports localError (resetDataEvent streamId) reader :=
  reports_process (Processor.reports_onStream (fun _ _ _ failed => by cases failed) streamId reader.processor)

theorem reports_transportFailed (error : Quiche.Error) (reader : Reader Conn) :
    Reports localError (transportFailed error : Call Conn Value) reader :=
  reports_throw (fun _ is => by cases is; exact ofTransport_spared error) reader

theorem reports_streamRecv (streamId len : Nat) (reader : Reader Conn) :
    Reports localError (streamRecv transport streamId len) reader := reports_ok rfl id

section

variable (streamId)

theorem reports_closeIfFinished (reader : Reader Conn) :
    Reports localError (closeConnIfCriticalStreamFinished transport streamId) reader :=
  .bind (reports_ok rfl id) fun _ middle _ =>
    .ite (fun _ => reports_refused .closedCriticalStream middle) fun _ => reports_pure () middle

theorem reports_received (bytes : List UInt8) (reader : Reader Conn) :
    Reports localError (received streamId bytes) reader := by
  refine .bind (reports_process (Processor.reports_onStream (fun _ _ _ failed => by cases failed) streamId _))
    fun _ middle _ => .bind (reports_borrowed streamId middle) fun stream last _ => ?_
  refine .ite (fun _ => reports_pure () last) fun _ => ?_
  exact .bind (reports_resetDataEvent streamId last) fun _ final _ => reports_throw Processor.spared_done final

theorem reports_tryFillBuffer (reader : Reader Conn) :
    Reports localError (tryFillBuffer transport streamId) reader := by
  refine .bind (reports_borrowed streamId reader) fun stream middle _ => ?_
  refine .ite (fun _ => reports_pure () middle) fun _ => .ite (fun _ => reports_panic middle) fun _ => ?_
  refine .bind (reports_streamRecv _ _ middle) fun answer last _ => ?_
  split
  · refine .ite (fun _ => ?_) fun _ => reports_received streamId _ last
    exact .bind (reports_refused _ last) fun _ final _ => reports_received streamId _ final
  · refine .ite (fun _ => ?_) fun _ => reports_transportFailed _ last
    exact .bind (reports_refused _ last) fun _ final _ => reports_transportFailed _ final
  · refine .ite (fun _ => ?_) fun _ => reports_transportFailed _ last
    exact .bind (reports_resetDataEvent streamId last) fun _ final _ => reports_transportFailed _ final

theorem reports_tryConsumeVarint (reader : Reader Conn) :
    Reports localError (tryConsumeVarint streamId) reader := by
  have kept := Processor.onStream_localError streamId Stream.tryConsumeVarint reader.processor
  cases called : Processor.onStream streamId Stream.tryConsumeVarint reader.processor with
  | ok varint processor =>
    rw [called] at kept
    exact reports_ok (by simp only [tryConsumeVarint, process, called]; rfl) kept.symm.trans
  | error failure processor =>
    rw [called] at kept
    cases failure with
    | error error => exact reports_ok (by simp only [tryConsumeVarint, process, called]; rfl) kept.symm.trans
    | panic =>
      exact reports_error (by simp only [tryConsumeVarint, process, called]; rfl) kept.symm.trans fun _ is => by cases is

theorem reports_onVarint {step : Nat → Call Conn Unit} (reader : Reader Conn)
    (reports : ∀ varint middle, Reports localError (step varint) middle) :
    Reports localError (onVarint transport streamId step) reader := by
  refine .bind (reports_tryFillBuffer streamId reader) fun _ middle _ =>
    .bind (reports_tryConsumeVarint streamId middle) fun varint last _ => ?_
  cases varint with
  | none => exact reports_pure Turn.again last
  | some varint => exact .bind (reports varint last) fun _ final _ => reports_pure Turn.again final

theorem reports_setting {action : Stream.Action Unit} (reader : Reader Conn) :
    Reports localError (process (Processor.closing (Processor.onStream streamId action))) reader :=
  reports_process (Processor.reports_closing (Processor.onStream_localError streamId action reader.processor))

theorem reports_opened (ty : StreamType) (reader : Reader Conn) :
    Reports localError (opened transport streamId ty) reader := by
  cases ty with
  | control =>
    refine .bind (reports_get reader) fun seen middle _ => .ite (fun _ => reports_refused _ middle) fun _ => ?_
    exact .bind (reports_closeIfFinished streamId middle) fun _ last _ => reports_modify rfl
  | push =>
    refine .bind (reports_get reader) fun seen middle _ => ?_
    exact .ite (fun _ => reports_refused _ middle) fun _ => reports_pure () middle
  | qpackEncoder =>
    refine .bind (reports_get reader) fun seen middle _ => .ite (fun _ => reports_refused _ middle) fun _ => ?_
    exact .bind (reports_closeIfFinished streamId middle) fun _ last _ => reports_modify rfl
  | qpackDecoder =>
    refine .bind (reports_get reader) fun seen middle _ => .ite (fun _ => reports_refused _ middle) fun _ => ?_
    exact .bind (reports_closeIfFinished streamId middle) fun _ last _ => reports_modify rfl
  | unknown => exact reports_pure () reader
  | request => exact reports_panic reader

theorem reports_consumeFrame (processor : Processor) :
    Reports Processor.localError (consumeFrame streamId) processor := by
  have kept := Processor.onStream_localError streamId Stream.tryConsumeFrame processor
  cases called : Processor.onStream streamId Stream.tryConsumeFrame processor with
  | ok frame next =>
    rw [called] at kept
    exact reports_ok (by simp only [consumeFrame, called]; rfl) kept.symm.trans
  | error failure next =>
    rw [called] at kept
    cases failure with
    | panic => exact reports_error (by simp only [consumeFrame, called]; rfl) kept.symm.trans fun _ is => by cases is
    | error error =>
      by_cases nothing : error = .done
      · subst nothing
        exact reports_error (by simp only [consumeFrame, called]; rfl) kept.symm.trans Processor.spared_done
      · exact (Processor.reports_refuse error next).of_eq (by simp only [consumeFrame, called]) kept.symm.trans

theorem reports_nextFrame (reader : Reader Conn) :
    Reports localError (nextFrame transport streamId) reader :=
  .bind (reports_tryFillBuffer streamId reader) fun _ middle _ =>
    .bind (reports_process (reports_consumeFrame streamId middle.processor)) fun (frame, _) last _ =>
      reports_pure frame last

end

theorem reports_readPayload (well : ∀ id parsed, nextFrame transport streamId reader = .ok (.goAway id) parsed →
      ¬ parsed.processor.Misdirects id) :
    Reports localError (readPayload transport streamId) reader := by
  refine .bind (reports_nextFrame streamId reader) fun frame parsed read =>
    .bind (reports_get parsed) fun seen middle reached => ?_
  cases reached
  have reports : Reports Processor.localError (Processor.processFrame (transport.inquiry parsed.conn) streamId frame)
      parsed.processor := Processor.reports_processFrame fun id is => well id parsed (is ▸ read)
  refine .bind (reports_process (Processor.reports_unlessDone reports)) fun event last _ => ?_
  cases event with
  | some event => exact reports_pure _ last
  | none =>
    refine .bind (reports_ok rfl id) fun finished final _ => ?_
    exact .ite (fun _ => reports_pure _ final) fun _ => reports_pure _ final

theorem reports_readData (streamId : Nat) (reader : Reader Conn) : Reports localError (readData streamId) reader := by
  have reports : Reports Processor.localError
    (Processor.onStream streamId Stream.tryTriggerDataEvent) reader.processor := by
    refine Processor.reports_onStream (fun stream error next failed => ?_) streamId reader.processor
    rw [Stream.tryTriggerDataEvent, get_bind] at failed
    by_cases triggered : stream.dataEventTriggered = true
    · simp only [triggered, if_true] at failed
      cases failed
    · simp only [triggered] at failed
      cases failed
  refine .bind (reports_process reports) fun fresh middle _ => ?_
  exact .ite (fun _ => reports_pure _ middle) fun _ => reports_pure _ middle

theorem reports_countInstruction (ty : Option StreamType) (recv : Nat) (reader : Reader Conn) :
    Reports localError (countInstruction ty recv) reader := by
  unfold countInstruction
  split
  · exact reports_modify rfl
  · exact reports_modify rfl
  · exact reports_panic reader

theorem reports_readInstruction (streamId : Nat) (reader : Reader Conn) :
    Reports localError (readInstruction transport streamId) reader := by
  refine .bind (reports_streamRecv streamId 4096 reader) fun answer middle _ => ?_
  cases answer with
  | error error => exact reports_transportFailed error middle
  | ok received =>
    refine .bind (reports_borrowed streamId middle) fun stream last _ =>
      .bind (reports_countInstruction _ _ last) fun _ final _ => ?_
    refine .ite (fun _ => ?_) fun _ => reports_pure _ final
    exact .bind (reports_refused _ final) fun _ closed _ => reports_pure _ closed

theorem reports_drain (streamId : Nat) (reader : Reader Conn) : Reports localError (drain transport streamId) reader := by
  refine .bind (reports_ok rfl id) fun answer middle _ => ?_
  cases answer with
  | error error => exact reports_transportFailed error middle
  | ok => exact reports_pure _ middle

theorem borrowed_ok {stream : Stream} (found : reader.processor.streams streamId = some stream) :
    borrowed streamId reader = .ok stream reader := by
  have same : reader.processor.putStream streamId stream = reader.processor := by
    rw [Processor.putStream, ← found, Function.update_eq_self]
  have seen : (get : Stream.Action Stream) stream = .ok stream stream := rfl
  have called : Processor.onStream streamId (get : Stream.Action Stream) reader.processor = .ok stream reader.processor :=
    (Processor.onStream_ok found seen).trans (by rw [same])
  simp only [borrowed, process, called]

/-- The stream has a GOAWAY frame with an id that is not that of a request. -/
structure Misdirected (transport : Transport Conn) (streamId : Nat) (polling : Bool) (reader : Reader Conn) : Prop where
  polled : polling = true
  reading : (reader.processor.streams streamId).map (·.state) = some .framePayload
  received : ∃ id parsed, nextFrame transport streamId reader = .ok (.goAway id) parsed ∧ parsed.processor.Misdirects id

theorem reports_turn {polling : Bool} {state : State} (well : polling = true → state = .framePayload → ∀ id parsed,
    nextFrame transport streamId reader = .ok (.goAway id) parsed → ¬ parsed.processor.Misdirects id) :
    Reports localError (turn transport streamId polling state) reader := by
  cases state with
  | streamType =>
    exact reports_onVarint streamId reader fun varint middle =>
      .bind (reports_setting streamId middle) fun _ last _ => reports_opened streamId _ last
  | pushId => exact reports_onVarint streamId reader fun varint middle => reports_setting streamId middle
  | frameType => exact reports_onVarint streamId reader fun varint middle => reports_setting streamId middle
  | framePayloadLen => exact reports_onVarint streamId reader fun varint middle => reports_setting streamId middle
  | framePayload => exact .ite (fun polled => reports_readPayload (well polled rfl)) fun _ => reports_pure _ reader
  | data => exact .ite (fun _ => reports_readData streamId reader) fun _ => reports_pure _ reader
  | qpackInstruction => exact reports_readInstruction streamId reader
  | drain => exact reports_drain streamId reader
  | finished => exact reports_pure _ reader

theorem reports_step {polling : Bool} (well : ¬ Misdirected transport streamId polling reader) :
    Reports localError (step transport streamId polling) reader := by
  cases found : reader.processor.streams streamId with
  | none =>
    refine .bind (reports_borrowed streamId reader) fun stream middle called => ?_
    have missing : Processor.onStream streamId (get : Stream.Action Stream) reader.processor =
        .error (.error .done) reader.processor := by simp only [Processor.onStream, found]
    simp only [borrowed, process, missing] at called
    cases called
  | some stream =>
    refine (reports_turn fun polled is id parsed read => ?_).of_eq (bind_ok (borrowed_ok found) _) id
    exact fun misdirects => well ⟨polled, by rw [found, Option.map_some, is], id, parsed, read, misdirects⟩

theorem step_misdirected {polling : Bool} (misdirected : Misdirected transport streamId polling reader) :
    ∃ last, step transport streamId polling reader = .error (.error .idError) last ∧
      last.processor.localError = some .frameUnexpected := by
  obtain ⟨polled, reading, id, parsed, read, misdirects⟩ := misdirected
  obtain ⟨stream, found, is⟩ := Option.map_eq_some_iff.mp reading
  refine ⟨{ parsed with processor := { parsed.processor with localError := some .frameUnexpected } }, ?_, rfl⟩
  have refused : process
    (Processor.unlessDone (Processor.processFrame (transport.inquiry parsed.conn) streamId (.goAway id)))
      parsed = .error (.error .idError)
        { parsed with processor := { parsed.processor with localError := some .frameUnexpected } } := by
    simp only [process, Processor.unlessDone, Processor.processFrame, Processor.processGoAway_misdirected misdirects]
  rw [step, bind_ok (borrowed_ok found), is, turn, if_pos polled, readPayload, bind_ok read, get_bind]
  exact bind_error refused _

end Turns

section Loop

variable {polling : Bool}

/-- One more turn is taken. -/
def Continues (transport : Transport Conn) (streamId : Nat) (polling : Bool) (reader next : Reader Conn) : Prop :=
  step transport streamId polling reader = .ok .again next

theorem turns_of_continues {reached : Reader Conn} {result : EStateM.Result Failure (Reader Conn) (Nat × Readable)}
    (continues : Relation.ReflTransGen (Continues transport streamId polling) reader reached) {fuel : Nat}
    (ended : turns transport streamId polling fuel reached = some result) :
    ∃ more, turns transport streamId polling more reader = some result := by
  induction continues using Relation.ReflTransGen.head_induction_on with
  | refl => exact ⟨fuel, ended⟩
  | head continued _ ih =>
    obtain ⟨more, rest⟩ := ih
    refine ⟨more + 1, ?_⟩
    rw [turns, continued]
    exact rest

theorem turns_answered {error : Error} {last : Reader Conn} (fuel : Nat) (loud : error.isSpared = false)
    (well : ∀ reached, Relation.ReflTransGen (Continues transport streamId polling) reader reached →
      ¬ Misdirected transport streamId polling reached)
    (ended : turns transport streamId polling fuel reader = some (.error (.error error) last)) :
    Answered localError reader last error := by
  induction fuel generalizing reader with
  | zero => cases ended
  | succ fuel ih =>
    obtain ⟨lasting, answers⟩ := reports_step (well reader .refl)
    rw [turns] at ended
    cases stepped : step transport streamId polling reader with
    | ok turned next =>
      rw [stepped] at ended lasting
      cases turned with
      | again =>
        have continued : Continues transport streamId polling reader next := stepped
        obtain ⟨open_, code⟩ := ih (fun reached continues => well reached (.head continued continues)) ended
        exact ⟨lasting open_, code⟩
      | leave =>
        cases ended
        cases loud
      | event id event => cases ended
    | error failure next =>
      rw [stepped] at ended
      cases ended
      exact answers error last stepped loud

theorem withStream_localError (reader : Reader Conn) (streamId : Nat) :
    (reader.withStream streamId).localError = reader.localError := by
  unfold withStream
  split <;> rfl

/-- Frames and streams are refused with the code of the error that is returned, exactly where no GOAWAY names a
stream that is not a request. -/
theorem errors_close_connection (transport : Transport Conn) (streamId : Nat) :
    (∀ inquiry frame (processor : Processor),
      (∀ error last, Processor.processFrame inquiry streamId frame processor = .error (.error error) last →
        error.isSpared = false → Answered Processor.localError processor last error) ↔
      ∀ id, frame = .goAway id → ¬ processor.Misdirects id) ∧ ∀ polling (reader : Reader Conn),
      (∀ fuel error last, processReadableStream transport streamId polling fuel reader =
        some (.error (.error error) last) → error.isSpared = false → Answered localError reader last error) ↔
      ∀ reached, Relation.ReflTransGen (Continues transport streamId polling) (reader.withStream streamId) reached →
        ¬ Misdirected transport streamId polling reached := by
  have mismatch : ¬ (some Error.frameUnexpected).map Error.toWire = some Error.idError.toWire := by decide
  constructor
  · intro inquiry frame processor
    constructor
    · rintro answered id rfl misdirects
      obtain ⟨_, code⟩ := answered .idError _ (Processor.processGoAway_misdirected misdirects) rfl
      exact mismatch code
    · exact fun well => (Processor.reports_processFrame well).answers
  · intro polling reader
    constructor
    · intro answered reached continues misdirected
      obtain ⟨last, stepped, closed⟩ := step_misdirected misdirected
      have ended : turns transport streamId polling 1 reached = some (.error (.error .idError) last) := by
        rw [turns, stepped]
      obtain ⟨fuel, failed⟩ := turns_of_continues continues ended
      obtain ⟨_, code⟩ := answered fuel .idError last failed rfl
      exact mismatch (closed ▸ code)
    · intro well fuel error last failed loud
      obtain ⟨open_, code⟩ := turns_answered fuel loud well failed
      exact ⟨(withStream_localError reader streamId).symm.trans open_, code⟩

def wire : Transport (List UInt8) where
  streamRecv _ len bytes :=
    if bytes.isEmpty then (.error .done, bytes) else (.ok (bytes.take len, false), bytes.drop len)
  stopReading _ _ bytes := (.ok (), bytes)
  inquiry _ := ⟨some 1200, fun _ => false, 100, fun _ => false⟩

def goawayOne : Reader (List UInt8) where
  processor := ⟨false, none, fun _ => none, .none, none, 0, none⟩
  peerControlStreamId := none
  peerQpackStreams := ⟨none, 0, none, 0⟩
  conn := [0x00, 0x04, 0x00, 0x07, 0x01, 0x01]

/-- The peer is told of an unexpected frame, and the application of a wrong identifier. -/
theorem goaway_one_closes_otherwise :
    ∃ last, processReadableStream wire 3 true 8 goawayOne = some (.error (.error .idError) last) ∧
      ¬ Answered localError goawayOne last .idError := by
  have observed : (processReadableStream wire 3 true 8 goawayOne).map (fun result =>
      match result with
      | .ok _ _ => none
      | .error failure last => some (failure, last.processor.localError)) =
        some (some (.error .idError, some .frameUnexpected)) := by decide +kernel
  obtain ⟨result, ended, same⟩ := Option.map_eq_some_iff.mp observed
  cases result with
  | ok event last => cases same
  | error failure last =>
    obtain ⟨failed, closed⟩ := Prod.mk.inj (Option.some.inj same)
    refine ⟨last, failed ▸ ended, fun answered => ?_⟩
    have code := answered.code
    rw [localError, closed] at code
    cases code

end Loop

end Reader

end Quiche.H3
