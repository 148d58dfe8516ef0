import Quiche.H3.Process.Requests
import Quiche.Stream.Map

namespace Quiche.H3

open Data

namespace Stream

/-- `take_last_priority_update` -/
def takeLastPriorityUpdate (stream : Stream) : Option (List UInt8) × Stream :=
  (stream.lastPriorityUpdate, { stream with lastPriorityUpdate := none })

end Stream

namespace Processor

def takeLastPriorityUpdate (prioritizedElementId : Nat) : Call (List UInt8) := do
  let processor ← get
  match processor.streams prioritizedElementId with
  | none => throw (.error .done)
  | some stream => do
    let (taken, stream) := stream.takeLastPriorityUpdate
    set (processor.putStream prioritizedElementId stream)
    match taken with
    | none => throw (.error .done)
    | some value => return value

def stored (processor : Processor) (id : Nat) : Option (List UInt8) :=
  (processor.streams id).bind (·.lastPriorityUpdate)

section Silent

variable {processor middle next last : Processor} {id : Nat}

/-- The same streams are there, with the same pending priority updates. -/
structure Agrees (processor next : Processor) : Prop where
  isServer : next.isServer = processor.isServer
  present : ∀ id, (next.streams id).isSome = (processor.streams id).isSome
  stored : ∀ id, next.stored id = processor.stored id

theorem Agrees.refl (processor : Processor) : processor.Agrees processor := ⟨rfl, fun _ => rfl, fun _ => rfl⟩

theorem Agrees.trans (first : processor.Agrees next) (second : next.Agrees last) : processor.Agrees last where
  isServer := second.isServer.trans first.isServer
  present id := (second.present id).trans (first.present id)
  stored id := (second.stored id).trans (first.stored id)

theorem agrees_of_streams (isServer : next.isServer = processor.isServer) (streams : next.streams = processor.streams) :
    processor.Agrees next where
  isServer := isServer
  present id := by rw [streams]
  stored id := by rw [Processor.stored, Processor.stored, streams]

theorem putStream_stored (id : Nat) (stream : Stream) (processor : Processor) (other : Nat) :
    (processor.putStream id stream).stored other =
    if other = id then stream.lastPriorityUpdate else processor.stored other := by
  by_cases same : other = id
  · subst same
    simp [Processor.stored, putStream_get]
  · simp [Processor.stored, putStream, same]

theorem putStream_present (id : Nat) (stream : Stream) (processor : Processor) (other : Nat) :
    ((processor.putStream id stream).streams other).isSome =
    (decide (other = id) || (processor.streams other).isSome) := by
  by_cases same : other = id
  · subst same
    simp [putStream_get]
  · simp [putStream, same]

theorem agrees_putStream {stream changed : Stream} (found : processor.streams id = some stream)
    (kept : changed.lastPriorityUpdate = stream.lastPriorityUpdate) :
    processor.Agrees (processor.putStream id changed) where
  isServer := rfl
  present other := by
    rw [putStream_present]
    by_cases same : other = id
    · simp [same, found]
    · simp [same]
  stored other := by
    rw [putStream_stored]
    by_cases same : other = id
    · simp [same, Processor.stored, found, kept]
    · simp [same]

/-- The call leaves every pending priority update and reports none. -/
structure Silent (call : Call (Nat × Event)) (processor : Processor) : Prop where
  agrees : processor.Agrees (after (call processor))
  quiet : ∀ event next, call processor = .ok event next → event.2 ≠ .priorityUpdate

theorem close_agrees (error : Error) (processor : Processor) : processor.Agrees (after (close error processor)) := by
  unfold close
  cases processor.localError with
  | some _ => exact .refl processor
  | none => exact agrees_of_streams rfl rfl

theorem refuseWith_agrees {Value : Type} (wire error : Error) (processor : Processor) :
    processor.Agrees (after ((refuseWith wire error : Call Value) processor)) :=
  after_bind (close_agrees wire processor) fun _ _ agrees => agrees

theorem Silent.bind {Value : Type} {call : Call Value} {next : Value → Call (Nat × Event)}
    (first : processor.Agrees (after (call processor)))
    (second : ∀ value middle, call processor = .ok value middle → Silent (next value) middle) :
    Silent (call >>= next) processor := by
  cases called : call processor with
  | ok value middle =>
    rw [called] at first
    obtain ⟨agrees, quiet⟩ := second value middle called
    constructor
    · rw [bind_ok called]
      exact first.trans agrees
    · rw [bind_ok called]
      exact quiet
  | error failure middle =>
    rw [called] at first
    constructor
    · rw [bind_error called]
      exact first
    · rw [bind_error called]
      intro event next returned
      cases returned

theorem silent_throw (failure : Failure) (processor : Processor) : Silent (throw failure) processor := by
  refine ⟨.refl processor, fun event next returned => ?_⟩
  cases returned

theorem silent_refuseWith (wire error : Error) (processor : Processor) : Silent (refuseWith wire error) processor :=
  .bind (close_agrees wire processor) fun _ middle _ => silent_throw (.error error) middle

theorem silent_return {event : Nat × Event} (other : event.2 ≠ .priorityUpdate) (processor : Processor) :
    Silent (pure event) processor := by
  refine ⟨.refl processor, fun value next returned => ?_⟩
  cases returned
  exact other

theorem Silent.get {next : Processor → Call (Nat × Event)} (rest : Silent (next processor) processor) :
    Silent (MonadState.get >>= next) processor := .bind (.refl processor) fun _ _ reached => by
    cases reached
    exact rest

theorem Silent.ite {condition : Prop} [Decidable condition] {call other : Call (Nat × Event)}
    (positive : Silent call processor) (negative : ¬ condition → Silent other processor) :
    Silent (if condition then call else other) processor := by
  split
  · exact positive
  · rename_i holds
    exact negative holds

theorem Silent.set {call : Call (Nat × Event)} (agrees : processor.Agrees next) (rest : Silent call next) :
    Silent ((MonadStateOf.set next : Call PUnit) >>= fun _ => call) processor := .bind agrees fun _ middle reached => by
    cases reached
    exact rest

theorem countHeaders_agrees (streamId : Nat) (processor : Processor) :
    processor.Agrees (after (countHeaders streamId processor)) := by
  rw [countHeaders, get_bind]
  cases found : processor.streams streamId with
  | none => exact .refl processor
  | some stream =>
    by_cases many : (processor.isServer && stream.headersReceivedCount == 2) = true
    · simp only [many, if_true]
      exact refuseWith_agrees _ _ processor
    · simp only [many]
      exact agrees_putStream found rfl

theorem silent_processSettings (inquiry : Inquiry) (settings : Settings) (processor : Processor) :
    Silent (processSettings inquiry settings) processor := .bind (agrees_of_streams rfl rfl) fun _ middle _ =>
    .ite (silent_refuseWith _ _ middle) fun _ => silent_throw _ middle

theorem silent_processHeaders (inquiry : Inquiry) (streamId : Nat) (headerBlock : List UInt8) (processor : Processor) :
    Silent (processHeaders inquiry streamId headerBlock) processor := by
  refine .bind (countHeaders_agrees streamId processor) fun _ middle _ => .get ?_
  split
  · exact silent_return (by simp) middle
  · exact silent_refuseWith _ _ middle
  · exact silent_refuseWith _ _ middle
  · exact silent_throw _ middle

theorem silent_processGoAway (id : Nat) (processor : Processor) : Silent (processGoAway id) processor :=
  .get (.ite (silent_refuseWith _ _ processor) fun _ =>
    .ite (silent_refuseWith _ _ processor) fun _ =>
      .set (agrees_of_streams rfl rfl) (silent_return (by simp) _))

theorem silent_processMaxPushId (pushId : Nat) (processor : Processor) : Silent (processMaxPushId pushId) processor :=
  .get (.ite (silent_refuseWith _ _ processor) fun _ =>
    .ite (silent_refuseWith _ _ processor) fun _ =>
      .set (agrees_of_streams rfl rfl) (silent_throw _ _))

theorem silent_processPushPromise (streamId : Nat) (processor : Processor) :
    Silent (processPushPromise streamId) processor := .get (.ite (silent_refuseWith _ _ processor) fun _ =>
    .ite (silent_refuseWith _ _ processor) fun _ => silent_throw _ processor)

theorem silent_processPriorityUpdatePush (elementId : Nat) (processor : Processor) :
    Silent (processPriorityUpdatePush elementId) processor := .get (.ite (silent_refuseWith _ _ processor) fun _ =>
    .ite (silent_refuseWith _ _ processor) fun _ => silent_throw _ processor)

theorem silent_processFrame {frame : Frame} (other : ∀ elementId value, frame ≠ .priorityUpdateRequest elementId value)
    (inquiry : Inquiry) (streamId : Nat) (processor : Processor) :
    Silent (processFrame inquiry streamId frame) processor := by
  cases frame with
  | settings settings => exact silent_processSettings inquiry settings processor
  | headers headerBlock => exact silent_processHeaders inquiry streamId headerBlock processor
  | goAway id => exact silent_processGoAway id processor
  | maxPushId pushId => exact silent_processMaxPushId pushId processor
  | pushPromise pushId headerBlock => exact silent_processPushPromise streamId processor
  | priorityUpdateRequest elementId value => exact absurd rfl (other elementId value)
  | priorityUpdatePush elementId value => exact silent_processPriorityUpdatePush elementId processor
  | data payload => exact silent_throw _ processor
  | cancelPush pushId => exact silent_throw _ processor
  | unknown rawType payload => exact silent_throw _ processor

end Silent

section Update

variable {processor : Processor} {inquiry : Inquiry} {elementId : Nat}

/-- What a PRIORITY_UPDATE must meet to be stored. -/
structure Storable (inquiry : Inquiry) (elementId : Nat) : Prop where
  request : elementId % 4 = 0
  bounded : elementId ≤ inquiry.maxStreamsBidi * 4
  uncollected : inquiry.isCollected elementId = false

instance (inquiry : Inquiry) (elementId : Nat) : Decidable (Storable inquiry elementId) :=
  decidable_of_iff (elementId % 4 = 0 ∧ elementId ≤ inquiry.maxStreamsBidi * 4 ∧ inquiry.isCollected elementId = false)
    ⟨fun ⟨request, bounded, uncollected⟩ => ⟨request, bounded, uncollected⟩,
      fun ⟨request, bounded, uncollected⟩ => ⟨request, bounded, uncollected⟩⟩

def update (processor : Processor) (elementId : Nat) (value : List UInt8) : Processor := processor.putStream elementId
    { (processor.streams elementId).getD (.new elementId false) with lastPriorityUpdate := some value }

section

variable (processor : Processor) (elementId : Nat)

theorem new_stored :
    ((processor.streams elementId).getD (.new elementId false)).lastPriorityUpdate = processor.stored elementId := by
  cases found : processor.streams elementId with
  | none => simp [Processor.stored, found, Stream.new]
  | some stream => simp [Processor.stored, found]

theorem update_stored (value : List UInt8) (id : Nat) :
    (processor.update elementId value).stored id = if id = elementId then some value else processor.stored id :=
  putStream_stored elementId _ processor id

theorem update_present (value : List UInt8) (id : Nat) :
    ((processor.update elementId value).streams id).isSome = (decide (id = elementId) || (processor.streams id).isSome) :=
  putStream_present elementId _ processor id

end

theorem processPriorityUpdateRequest_stores (server : processor.isServer = true) (storable : Storable inquiry elementId)
    (value : List UInt8) : processPriorityUpdateRequest inquiry elementId value processor =
      if (processor.stored elementId).isNone then .ok (elementId, .priorityUpdate) (processor.update elementId value)
      else .error (.error .done) (processor.update elementId value) := by
  obtain ⟨request, bounded, uncollected⟩ := storable
  rw [processPriorityUpdateRequest, get_bind]
  simp only [server, request, uncollected, Nat.not_lt.mpr bounded, Bool.not_true, Bool.false_eq_true, ne_eq, not_true,
    if_false, ← new_stored]
  by_cases fresh : (((processor.streams elementId).getD (.new elementId false)).lastPriorityUpdate).isNone = true
  · simp only [fresh, if_true]
    rfl
  · simp only [fresh]
    rfl

theorem processPriorityUpdateRequest_silent (server : processor.isServer = true) (refused : ¬ Storable inquiry elementId)
    (value : List UInt8) : Silent (processPriorityUpdateRequest inquiry elementId value) processor := by
  refine .get ?_
  simp only [server, Bool.not_true, Bool.false_eq_true, if_false]
  by_cases request : elementId % 4 = 0
  · by_cases bounded : elementId ≤ inquiry.maxStreamsBidi * 4
    · cases uncollected : inquiry.isCollected elementId with
      | false => exact absurd ⟨request, bounded, uncollected⟩ refused
      | true =>
        simp only [request, Nat.not_lt.mpr bounded, ne_eq, not_true, if_false, if_true]
        exact silent_throw _ processor
    · simp only [request, Nat.not_le.mp bounded, ne_eq, not_true, if_false, if_true]
      exact silent_refuseWith _ _ processor
  · simp only [request, ne_eq, not_false_eq_true, if_true]
    exact silent_refuseWith _ _ processor

end Update

end Processor

/-- An HTTP/3 server with the streams of its transport. `created` are the streams that a PRIORITY_UPDATE put
into the table, each with the transport as it was then, and `entered` the streams that were read or sent on.
`raised` are the streams that a PriorityUpdate event named, and `settled` those whose update was taken or
dropped with the stream. -/
structure Prioritized where
  processor : Processor
  map : StreamMap
  created : List (Nat × StreamMap)
  entered : List Nat
  raised : List Nat
  settled : List Nat

/-- What happens to the table of the streams. -/
inductive Prioritized.Op where
  | frame (dgramMaxWritableLen : Option Nat) (streamFinished : Nat → Bool) (streamId : Nat) (frame : Frame)
  | takeLastPriorityUpdate (prioritizedElementId : Nat)
  -- `process_readable_stream` enters a stream that is not in the table, and `send_request` any.
  | readable (streamId : Nat)
  | sendRequest (streamId : Nat)
  -- What is read or sent on a stream changes anything but its update.
  | change (streamId : Nat) (stream : Stream)
  | remove (streamId : Nat)
  -- The transport goes on by itself.
  | transport (map : StreamMap)

namespace Prioritized

open Processor

def start (maxFieldSectionSize : Option Nat) (map : StreamMap) : Prioritized :=
  ⟨⟨true, maxFieldSectionSize, fun _ => none, .none, none, 0, none⟩, map, [], [], [], []⟩

def inquiry (state : Prioritized) (dgramMaxWritableLen : Option Nat) (streamFinished : Nat → Bool) : Inquiry :=
  ⟨dgramMaxWritableLen, streamFinished, state.map.localMaxStreamsBidi, fun id => decide (id ∈ state.map.collected)⟩

def follow (state : Prioritized) (frame : Frame) (next : Processor) : Prioritized :=
  { state with
    processor := next
    created :=
      match frame with
      | .priorityUpdateRequest elementId _ =>
        if (state.processor.streams elementId).isNone && (next.streams elementId).isSome
        then (elementId, state.map) :: state.created else state.created
      | _ => state.created }

def onFrame (state : Prioritized) (inquiry : Inquiry) (streamId : Nat) (frame : Frame) : Option Prioritized :=
  match processFrame inquiry streamId frame state.processor with
  | .ok (id, .priorityUpdate) next => some { state.follow frame next with raised := id :: state.raised }
  | .ok _ next => some (state.follow frame next)
  | .error (.error _) next => some (state.follow frame next)
  | .error .panic _ => none

/-- The streams whose update goes: `settled` grows by `id` where one was stored. -/
def settle (state : Prioritized) (id : Nat) : List Nat :=
  if (state.processor.stored id).isSome then id :: state.settled else state.settled

def step (state : Prioritized) : Op → Option Prioritized
  | .frame dgramMaxWritableLen streamFinished streamId frame =>
    state.onFrame (state.inquiry dgramMaxWritableLen streamFinished) streamId frame
  | .takeLastPriorityUpdate id =>
    some { state with
      processor := after (takeLastPriorityUpdate id state.processor)
      settled := state.settle id }
  | .readable streamId =>
    some { state with
      processor := state.processor.putStream streamId ((state.processor.streams streamId).getD (.new streamId false))
      entered := streamId :: state.entered }
  | .sendRequest streamId =>
    some { state with
      processor := state.processor.putStream streamId (.new streamId true)
      entered := streamId :: state.entered
      settled := state.settle streamId }
  | .change streamId changed =>
    some (match state.processor.streams streamId with
      | none => state
      | some stream => { state with
          processor := state.processor.putStream streamId
            { changed with lastPriorityUpdate := stream.lastPriorityUpdate } })
  | .remove streamId =>
    some { state with
      processor := { state.processor with streams := Function.update state.processor.streams streamId none }
      settled := state.settle streamId }
  | .transport map => some { state with map := map }

def machine : Machine Prioritized Op := ⟨step⟩

def accept (state : Prioritized) (elementId : Nat) (value : List UInt8) : Prioritized :=
  { state with
    processor := state.processor.update elementId value
    created :=
      if (state.processor.streams elementId).isNone then (elementId, state.map) :: state.created else state.created
    raised := if (state.processor.stored elementId).isNone then elementId :: state.raised else state.raised }

variable {state next : Prioritized} {elementId : Nat} {dgramMaxWritableLen : Option Nat} {streamFinished : Nat → Bool}
  {frame : Frame}

theorem follow_agrees {processor : Processor} (agrees : state.processor.Agrees processor) (frame : Frame) :
    state.follow frame processor = { state with processor := processor } := by
  cases frame with
  | priorityUpdateRequest elementId value =>
    have same : ((state.processor.streams elementId).isNone && (processor.streams elementId).isSome) = false := by
      rw [agrees.present elementId]
      cases state.processor.streams elementId <;> rfl
    simp [follow, same]
  | _ => rfl

theorem follow_update (elementId : Nat) (value : List UInt8) :
    state.follow (.priorityUpdateRequest elementId value) (state.processor.update elementId value) = { state with
        processor := state.processor.update elementId value
        created :=
          if (state.processor.streams elementId).isNone then (elementId, state.map) :: state.created
          else state.created } := by
  simp [follow, update_present]

theorem onFrame_silent {inquiry : Inquiry} {streamId : Nat}
    (silent : Silent (processFrame inquiry streamId frame) state.processor)
    (stepped : state.onFrame inquiry streamId frame = some next) :
    ∃ processor, state.processor.Agrees processor ∧ next = { state with processor := processor } := by
  obtain ⟨agrees, quiet⟩ := silent
  unfold onFrame at stepped
  cases called : processFrame inquiry streamId frame state.processor with
  | ok event processor =>
    rw [called] at agrees stepped
    obtain ⟨id, kind⟩ := event
    cases kind with
    | priorityUpdate => exact absurd rfl (quiet _ _ called)
    | headers list moreFrames =>
      cases stepped
      exact ⟨processor, agrees, follow_agrees agrees frame⟩
    | goAway =>
      cases stepped
      exact ⟨processor, agrees, follow_agrees agrees frame⟩
  | error failure processor =>
    rw [called] at agrees stepped
    cases failure with
    | panic => cases stepped
    | error reason =>
      cases stepped
      exact ⟨processor, agrees, follow_agrees agrees frame⟩

theorem onFrame_stores {inquiry : Inquiry} (server : state.processor.isServer = true)
    (storable : Storable inquiry elementId) (streamId : Nat) (value : List UInt8) :
    state.onFrame inquiry streamId (.priorityUpdateRequest elementId value) = some (state.accept elementId value) := by
  have called : processFrame inquiry streamId (.priorityUpdateRequest elementId value) state.processor = _ :=
    processPriorityUpdateRequest_stores server storable value
  unfold onFrame
  by_cases fresh : (state.processor.stored elementId).isNone = true
  · rw [if_pos fresh] at called
    simp [called, follow_update, accept, fresh]
  · rw [if_neg fresh] at called
    simp [called, follow_update, accept, fresh]

theorem frame_cases (server : state.processor.isServer = true) (inquiry : Inquiry) (streamId : Nat) (frame : Frame) :
    Silent (processFrame inquiry streamId frame) state.processor ∨
      ∃ elementId value, frame = .priorityUpdateRequest elementId value ∧ Storable inquiry elementId := by
  cases frame with
  | priorityUpdateRequest elementId value =>
    by_cases storable : Storable inquiry elementId
    · exact .inr ⟨elementId, value, rfl, storable⟩
    · exact .inl (processPriorityUpdateRequest_silent server storable value)
  | _ => exact .inl (silent_processFrame (by simp) inquiry streamId state.processor)

/-- Each update that was reported is either taken or still stored. -/
structure Accounted (state : Prioritized) : Prop where
  isServer : state.processor.isServer = true
  covered : ∀ id, (state.processor.streams id).isSome → id ∈ state.entered ∨ ∃ map, (id, map) ∈ state.created
  valid : ∀ id map, (id, map) ∈ state.created → id % 4 = 0 ∧ id ∉ map.collected
  balanced : ∀ id, state.raised.count id = state.settled.count id + if (state.processor.stored id).isSome then 1 else 0

theorem accounted_start (maxFieldSectionSize : Option Nat) (map : StreamMap) :
    (start maxFieldSectionSize map).Accounted where
  isServer := rfl
  covered _ present := by cases present
  valid _ _ member := by cases member
  balanced _ := rfl

section

variable (accounted : state.Accounted)

include accounted

theorem Accounted.agrees {processor : Processor}
    (agrees : state.processor.Agrees processor) : Accounted { state with processor := processor } where
  isServer := agrees.isServer.trans accounted.isServer
  covered id present := accounted.covered id ((agrees.present id).symm.trans present)
  valid := accounted.valid
  balanced id := by
    show state.raised.count id = state.settled.count id + if (processor.stored id).isSome then 1 else 0
    rw [agrees.stored id]
    exact accounted.balanced id

theorem Accounted.accept
    (storable : Storable (state.inquiry dgramMaxWritableLen streamFinished) elementId) (value : List UInt8) :
    (state.accept elementId value).Accounted where
  isServer := accounted.isServer
  covered id present := by
    rw [Prioritized.accept, update_present, Bool.or_eq_true] at present
    by_cases old : (state.processor.streams id).isSome = true
    · rcases accounted.covered id old with entered | ⟨map, created⟩
      · exact .inl entered
      · refine .inr ⟨map, ?_⟩
        rw [Prioritized.accept]
        split
        · exact List.mem_cons_of_mem _ created
        · exact created
    · have same : id = elementId := of_decide_eq_true (present.resolve_right old)
      subst same
      have absent : (state.processor.streams id).isNone = true := by simpa using old
      exact .inr ⟨state.map, by simp [Prioritized.accept, absent]⟩
  valid id map member := by
    rw [Prioritized.accept] at member
    split at member
    · rcases List.mem_cons.mp member with same | old
      · cases same
        exact ⟨storable.request, of_decide_eq_false storable.uncollected⟩
      · exact accounted.valid id map old
    · exact accounted.valid id map member
  balanced id := by
    have balanced := accounted.balanced id
    rw [Prioritized.accept, update_stored]
    by_cases same : id = elementId
    · subst same
      cases held : state.processor.stored id with
      | none => simpa [held] using balanced
      | some _ => simpa [held] using balanced
    · have other : ¬ elementId = id := fun equal => same equal.symm
      cases held : state.processor.stored elementId with
      | none => simpa [same, other, List.count_cons] using balanced
      | some _ => simpa [same] using balanced

theorem Accounted.covered_put (streamId : Nat) (stream : Stream) (id : Nat)
    (present : ((state.processor.putStream streamId stream).streams id).isSome) :
    id ∈ streamId :: state.entered ∨ ∃ map, (id, map) ∈ state.created := by
  rw [putStream_present, Bool.or_eq_true] at present
  rcases present with same | old
  · exact .inl (List.mem_cons.mpr (.inl (of_decide_eq_true same)))
  · rcases accounted.covered id old with entered | created
    · exact .inl (List.mem_cons_of_mem _ entered)
    · exact .inr created

theorem Accounted.settle_balanced {id : Nat} {processor : Processor}
    (dropped : processor.stored id = none) (kept : ∀ other, other ≠ id →
      processor.stored other = state.processor.stored other)
    (other : Nat) :
    state.raised.count other = (state.settle id).count other + if (processor.stored other).isSome then 1 else 0 := by
  have balanced := accounted.balanced other
  unfold settle
  by_cases same : other = id
  · subst same
    cases held : state.processor.stored other with
    | none => simpa [held, dropped] using balanced
    | some _ => simpa [held, dropped] using balanced
  · have swapped : ¬ id = other := fun equal => same equal.symm
    rw [kept other same]
    cases held : state.processor.stored id with
    | none => simpa using balanced
    | some _ => simpa [swapped, List.count_cons] using balanced

end

theorem take_cases (id : Nat) (processor : Processor) : let next := after (takeLastPriorityUpdate id processor)
    next.isServer = processor.isServer ∧ (∀ other, (next.streams other).isSome = (processor.streams other).isSome) ∧
      next.stored id = none ∧ ∀ other, other ≠ id → next.stored other = processor.stored other := by
  simp only
  rw [takeLastPriorityUpdate, get_bind]
  cases found : processor.streams id with
  | none =>
    refine ⟨rfl, fun _ => rfl, ?_, fun _ _ => rfl⟩
    show processor.stored id = none
    simp [Processor.stored, found]
  | some stream =>
    have taken : after ((takeLastPriorityUpdate id) processor) =
        processor.putStream id { stream with lastPriorityUpdate := none } := by
      rw [takeLastPriorityUpdate, get_bind, found]
      show after ((match stream.lastPriorityUpdate with
        | none => throw (.error .done) | some value => pure value : Call (List UInt8)) _) = _
      cases stream.lastPriorityUpdate <;> rfl
    rw [takeLastPriorityUpdate, get_bind, found] at taken
    rw [taken]
    refine ⟨rfl, fun other => ?_, ?_, fun other different => ?_⟩
    · rw [putStream_present]
      by_cases same : other = id
      · simp [same, found]
      · simp [same]
    · rw [putStream_stored, if_pos rfl]
    · rw [putStream_stored, if_neg different]

theorem step_keeps (state : Prioritized) (op : Op) (next : Prioritized) (accounted : state.Accounted)
    (stepped : machine.step state op = some next) : next.Accounted := by
  cases op with
  | frame dgramMaxWritableLen streamFinished streamId frame =>
    rcases frame_cases accounted.isServer (state.inquiry dgramMaxWritableLen streamFinished) streamId frame with
      silent | ⟨elementId, value, rfl, storable⟩
    · obtain ⟨processor, agrees, rfl⟩ := onFrame_silent silent stepped
      exact accounted.agrees agrees
    · cases (onFrame_stores accounted.isServer storable streamId value).symm.trans stepped
      exact accounted.accept storable value
  | takeLastPriorityUpdate id =>
    cases stepped
    obtain ⟨isServer, present, dropped, kept⟩ := take_cases id state.processor
    exact {
      isServer := isServer.trans accounted.isServer
      covered := fun other there => accounted.covered other ((present other).symm.trans there)
      valid := accounted.valid
      balanced := accounted.settle_balanced dropped kept }
  | readable streamId =>
    cases stepped
    exact {
      isServer := accounted.isServer
      covered := accounted.covered_put _ _
      valid := accounted.valid
      balanced := fun id => by
        show state.raised.count id = _ + if ((Processor.stored _ id).isSome) then 1 else 0
        rw [putStream_stored, new_stored, accounted.balanced id]
        by_cases same : id = streamId
        · rw [if_pos same, same]
        · rw [if_neg same] }
  | sendRequest streamId =>
    cases stepped
    exact {
      isServer := accounted.isServer
      covered := accounted.covered_put _ _
      valid := accounted.valid
      balanced := accounted.settle_balanced
        (by rw [putStream_stored, if_pos rfl]; rfl)
        fun other different => by rw [putStream_stored, if_neg different] }
  | change streamId changed =>
    cases stepped
    cases found : state.processor.streams streamId with
    | none => simpa [found] using accounted
    | some stream =>
      simp only
      exact accounted.agrees (agrees_putStream found rfl)
  | remove streamId =>
    cases stepped
    exact {
      isServer := accounted.isServer
      covered := fun id present => by
        by_cases same : id = streamId
        · simp [same] at present
        · exact accounted.covered id (by simpa [same] using present)
      valid := accounted.valid
      balanced := accounted.settle_balanced
        (by simp [Processor.stored])
        fun other different => by simp [Processor.stored, different] }
  | transport map =>
    cases stepped
    exact ⟨accounted.isServer, accounted.covered, accounted.valid, accounted.balanced⟩

/-- Each stream that was made is within the limit that held then. -/
def Below (state : Prioritized) : Prop := ∀ id map, (id, map) ∈ state.created → id / 4 < map.localMaxStreamsBidi

/-- An update for the stream just above the limit finds that stream, open or collected. -/
def Inside (state : Prioritized) : Op → Prop
  | .frame _ _ _ (.priorityUpdateRequest elementId _) => elementId = state.map.localMaxStreamsBidi * 4 →
      elementId ∈ state.map.collected ∨ (state.processor.streams elementId).isSome
  | _ => True

instance (state : Prioritized) (op : Op) : Decidable (state.Inside op) := by
  rcases op with ⟨⟩
  case frame frame =>
    rcases frame with ⟨⟩
    case priorityUpdateRequest => exact inferInstanceAs (Decidable (_ → _ ∨ _))
    all_goals exact .isTrue trivial
  all_goals exact .isTrue trivial

theorem inside_of_silent {streamId : Nat} (server : state.processor.isServer = true)
    (silent : Silent (processFrame (state.inquiry dgramMaxWritableLen streamFinished) streamId frame) state.processor) :
    state.Inside (.frame dgramMaxWritableLen streamFinished streamId frame) := by
  cases frame with
  | priorityUpdateRequest elementId value =>
    intro boundary
    by_contra neither
    obtain ⟨uncollected, absent⟩ := not_or.mp neither
    have storable : Storable (state.inquiry dgramMaxWritableLen streamFinished) elementId :=
      ⟨by omega, Nat.le_of_eq boundary, decide_eq_false uncollected⟩
    have stores := processPriorityUpdateRequest_stores server storable value
    have agrees := silent.agrees.present elementId
    change ((after (processPriorityUpdateRequest _ elementId value state.processor)).streams elementId).isSome =
      _ at agrees
    rw [stores] at agrees
    split at agrees
    · exact absent (agrees.symm.trans (by simp [after, update_present]))
    · exact absent (agrees.symm.trans (by simp [after, update_present]))
  | _ => trivial

theorem below_accept (storable : Storable (state.inquiry dgramMaxWritableLen streamFinished) elementId)
    (streamId : Nat) (value : List UInt8) : (state.accept elementId value).Below ↔ state.Below ∧ state.Inside
        (.frame dgramMaxWritableLen streamFinished streamId (.priorityUpdateRequest elementId value)) := by
  obtain ⟨request, bounded, uncollected⟩ := storable
  have bounded : elementId ≤ state.map.localMaxStreamsBidi * 4 := bounded
  have uncollected : elementId ∉ state.map.collected := of_decide_eq_false uncollected
  cases found : state.processor.streams elementId with
  | some stream =>
    have same : (state.accept elementId value).created = state.created := by simp [accept, found]
    rw [Below, same]
    exact (and_iff_left fun _ => .inr (by simp [found])).symm
  | none =>
    have grown : (state.accept elementId value).created = (elementId, state.map) :: state.created := by
      simp [accept, found]
    rw [Below, grown]
    constructor
    · intro below
      refine ⟨fun id map member => below id map (List.mem_cons_of_mem _ member), fun boundary => ?_⟩
      have := below elementId state.map (List.mem_cons_self ..)
      omega
    · rintro ⟨below, inside⟩ id map member
      rcases List.mem_cons.mp member with same | old
      · cases same
        have apart : elementId ≠ state.map.localMaxStreamsBidi * 4 := by
          intro boundary
          rcases inside boundary with collected | present
          · exact uncollected collected
          · simp [found] at present
        omega
      · exact below id map old

theorem step_below (state : Prioritized) (op : Op) (next : Prioritized) (accounted : state.Accounted)
    (stepped : machine.step state op = some next) : next.Below ↔ state.Below ∧ state.Inside op := by
  cases op with
  | frame dgramMaxWritableLen streamFinished streamId frame =>
    rcases frame_cases accounted.isServer (state.inquiry dgramMaxWritableLen streamFinished) streamId frame with
      silent | ⟨elementId, value, rfl, storable⟩
    · obtain ⟨processor, _, rfl⟩ := onFrame_silent silent stepped
      exact (and_iff_left (inside_of_silent accounted.isServer silent)).symm
    · cases (onFrame_stores accounted.isServer storable streamId value).symm.trans stepped
      exact below_accept storable streamId value
  | change streamId changed =>
    cases stepped
    cases found : state.processor.streams streamId with
    | none => simp [Inside]
    | some stream => simp [Inside, Below]
  | _ =>
    cases stepped
    exact (and_iff_left trivial).symm

/-- A frame is reported just when it fills the empty update of its stream. -/
def Announces (state : Prioritized) : Op → Prop
  | .frame dgramMaxWritableLen streamFinished streamId frame =>
    ∀ id, (∃ next, processFrame (state.inquiry dgramMaxWritableLen streamFinished) streamId frame state.processor =
        .ok (id, .priorityUpdate) next) ↔ state.processor.stored id = none ∧
        (after (processFrame (state.inquiry dgramMaxWritableLen streamFinished) streamId frame state.processor)).stored
          id ≠ none
  | _ => True

theorem step_announces (state : Prioritized) (op : Op) (accounted : state.Accounted) : state.Announces op := by
  cases op with
  | frame dgramMaxWritableLen streamFinished streamId frame =>
    intro id
    rcases frame_cases accounted.isServer (state.inquiry dgramMaxWritableLen streamFinished) streamId frame with
      silent | ⟨elementId, value, rfl, storable⟩
    · constructor
      · rintro ⟨next, returned⟩
        exact absurd rfl (silent.quiet _ _ returned)
      · rintro ⟨unstored, stillStored⟩
        exact absurd ((silent.agrees.stored id).trans unstored) stillStored
    · have called := processPriorityUpdateRequest_stores accounted.isServer storable value
      have stored : (after (processPriorityUpdateRequest (state.inquiry dgramMaxWritableLen streamFinished) elementId
          value state.processor)).stored id = if id = elementId then some value else state.processor.stored id := by
        rw [called, ← update_stored]
        split <;> rfl
      rw [processFrame, stored, called]
      by_cases same : id = elementId
      · subst same
        cases held : state.processor.stored id with
        | none => simp
        | some _ => simp
      · have other : ¬ elementId = id := fun equal => same equal.symm
        cases held : state.processor.stored elementId with
        | none => simp [same, other]
        | some _ => simp [same]
  | _ => trivial

theorem priority_updates_bounded (maxFieldSectionSize : Option Nat) (map : StreamMap) (ops : List Op)
    (final : Prioritized) (completed : machine.run (start maxFieldSectionSize map) ops = some final) :
    (∀ id, (final.processor.streams id).isSome → id ∈ final.entered ∨ ∃ map, (id, map) ∈ final.created) ∧
      (∀ id map, (id, map) ∈ final.created → id % 4 = 0 ∧ id ∉ map.collected) ∧
      ((∀ id map, (id, map) ∈ final.created → id / 4 < map.localMaxStreamsBidi) ↔
        machine.Guarded Inside (start maxFieldSectionSize map) ops) ∧
      (∀ id, final.raised.count id = final.settled.count id + if (final.processor.stored id).isSome then 1 else 0) ∧
      machine.Guarded Announces (start maxFieldSectionSize map) ops := by
  have initial := accounted_start maxFieldSectionSize map
  have accounted := machine.run_keeps step_keeps initial completed
  have below : final.Below ↔ (start maxFieldSectionSize map).Below ∧ _ :=
    machine.run_iff_guarded step_keeps step_below initial completed
  have announces := machine.guarded_of_guarded (fun state op accounted _ => step_announces state op accounted)
    (fun state op next accounted _ => step_keeps state op next accounted) initial (Machine.guarded_true _ ops)
  refine ⟨accounted.covered, accounted.valid, below.trans (and_iff_right ?_), accounted.balanced, announces⟩
  exact fun _ _ member => by cases member

def priorityUpdate (id : Nat) (value : List UInt8) : Op :=
  .frame none (fun _ => false) 2 (.priorityUpdateRequest id value)

/-- The update of stream 4 is replaced, taken, and made once more until the stream goes; stream 12 is collected when
its update comes, and the limit has grown when that of stream 8 does. -/
def updates : List Op :=
  [priorityUpdate 4 [117], priorityUpdate 4 [105], .takeLastPriorityUpdate 4, priorityUpdate 4 [117], .readable 0,
    .change 0 (.new 0 false), priorityUpdate 0 [117], .remove 4,
    .transport { StreamMap.new 3 0 0 with collected := {12} }, priorityUpdate 12 [105], priorityUpdate 8 [105]]

theorem priority_updates_bounded_limits :
    ∃ final, machine.run (start none (.new 2 0 0)) updates = some final ∧ final.raised = [8, 0, 4, 4] ∧
      final.settled = [4, 4] ∧ (∀ id map, (id, map) ∈ final.created → id / 4 < map.localMaxStreamsBidi) :=
  exists_reached_of (fun final => final.raised = [8, 0, 4, 4] ∧ final.settled = [4, 4]) (by decide +kernel)
    fun final completed ⟨raised, settled⟩ => by
      obtain ⟨_, _, below, _, _⟩ := priority_updates_bounded none (.new 2 0 0) updates final completed
      exact ⟨raised, settled, below.mpr (by decide +kernel)⟩

/-- Where one stream may be opened, the second is put into the table. -/
theorem stream_at_limit_created : ∃ final, machine.run (start none (.new 1 0 0)) [priorityUpdate 4 [117]] = some final ∧
      final.created = [(4, .new 1 0 0)] ∧ ¬ 4 / 4 < (StreamMap.new 1 0 0).localMaxStreamsBidi :=
  ⟨_, rfl, rfl, by decide⟩

end Prioritized

end Quiche.H3
