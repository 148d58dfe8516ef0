import Quiche.H3.Send
import Quiche.Octets.Wire

namespace Quiche.H3

open Data

structure RawFrame where
  type : Varint
  payload : List UInt8
  short : payload.length < 2 ^ 62

namespace RawFrame

def bytes (frame : RawFrame) : List UInt8 :=
  Octets.varint frame.type ++ Octets.varint frame.payload.length ++ frame.payload

def data (frame : RawFrame) : List UInt8 := if frame.type.val = dataFrameTypeId then frame.payload else []

end RawFrame

namespace Outlet

variable {outlet : Outlet} {send : SendBuf} {stream buf : List UInt8}

/-- The capacity of the stream that `send` is the buffer of. -/
def room (outlet : Outlet) (send : SendBuf) : Nat := min outlet.txCap (send.maxData - send.off)

theorem streamCapacity_eq (found : outlet.send = some send) (valid : SendBuf.Valid stream send) :
    outlet.streamCapacity = some (.ok (outlet.room send)) := by
  rw [streamCapacity, found]
  dsimp only
  rw [SendBuf.cap, valid.running, subChecked_of_le valid.off_le]
  rfl

theorem getOrCreateStream_some (found : outlet.send = some send) : outlet.getOrCreateStream = .ok send := by
  rw [getOrCreateStream, found]

theorem streamSend_room (buf : List UInt8) (found : outlet.getOrCreateStream = .ok send)
    (valid : SendBuf.Valid stream send)
    (open_ : send.finOff = none) (fits : buf.length ≤ outlet.room send) (fin : Bool) :
    ∃ next, outlet.streamSend buf fin =
        some ({ outlet with send := some next, txCap := outlet.txCap - buf.length }, .ok buf.length) ∧
      SendBuf.Stored stream send buf fin next := by
  rw [room] at fits
  obtain ⟨next, written, stored⟩ := SendBuf.write_room valid open_ buf (by omega) fin
  refine ⟨next, ?_, stored⟩
  have all : min outlet.txCap buf.length = buf.length := by omega
  have uncapped : decide (outlet.txCap < buf.length) = false := decide_eq_false (by omega)
  have able : ¬ (outlet.txCap = 0 ∧ buf.length > 0) := by omega
  have left : subChecked outlet.txCap buf.length = some (outlet.txCap - buf.length) := subChecked_of_le (by omega)
  rw [streamSend, streamDoSend, found]
  simp [able, all, uncapped, written, Except.map, left]

theorem streamSendZc_room (found : outlet.getOrCreateStream = .ok send) (valid : SendBuf.Valid stream send)
    (open_ : send.finOff = none) {len : Nat} (within : len ≤ buf.length) (fits : len ≤ outlet.room send)
    {fin : Bool} (whole : fin = true → len = buf.length) (accepts : 0 < len ∨ buf.length = 0) :
    ∃ next remaining, outlet.streamSendZc buf (some len) fin =
        some ({ outlet with send := some next, txCap := outlet.txCap - len }, .ok (len, remaining)) ∧
      SendBuf.Stored stream send (buf.take len) fin next := by
  rw [room] at fits
  have part : min len buf.length = len := Nat.min_eq_left within
  obtain ⟨next, remaining, appended, stored⟩ := SendBuf.appendBuf_room valid open_ buf len (by omega) fin
  refine ⟨next, remaining, ?_, stored⟩
  have capped : min len (min outlet.txCap buf.length) = len := by omega
  have unended : (!decide (outlet.txCap < buf.length) && fin) = fin := by
    cases fin with
    | false => simp
    | true =>
      have all := whole rfl
      simp
      omega
  have ready : ¬ (outlet.txCap = 0 ∧ 0 < buf.length) := by omega
  have left : subChecked outlet.txCap len = some (outlet.txCap - len) := subChecked_of_le (by omega)
  rw [streamSendZc, streamDoSend, found]
  simp [ready, capped, unended, appended, part, Except.map, left]
  intro empty _
  exact List.eq_nil_of_length_eq_zero (by omega)

section

variable (found : outlet.send = some send) (valid : SendBuf.Valid stream send) (closed : send.finOff ≠ none)

include found valid closed

theorem streamSend_closed {fin : Bool} (more : buf ≠ [] ∨ fin = false) :
    ∃ error, outlet.streamSend buf fin = some (outlet, .error error) := by
  have same : { outlet with send := some send } = outlet := by rw [← found]
  rw [streamSend, streamDoSend, getOrCreateStream_some found]
  by_cases capped : outlet.txCap = 0 ∧ 0 < buf.length
  · refine ⟨.done, ?_⟩
    dsimp only
    rw [if_pos capped, same]
  · have beyond : 0 < (buf.take (min outlet.txCap buf.length)).length ∨
        (!decide (outlet.txCap < buf.length) && fin) = false := by
      rcases more with more | rfl
      · have nonempty := List.length_pos_of_ne_nil more
        left
        rw [List.length_take]
        omega
      · exact .inr (Bool.and_false _)
    have refused := SendBuf.write_closed valid closed (buf.take (min outlet.txCap buf.length)) _ beyond
    refine ⟨.finalSize, ?_⟩
    dsimp only
    rw [if_neg capped]
    simp [refused, Except.map, same]

theorem streamSendZc_closed {len : Nat} (more : buf ≠ []) (accepts : 0 < len) (fin : Bool) :
    ∃ error, outlet.streamSendZc buf (some len) fin = some (outlet, .error error) := by
  have same : { outlet with send := some send } = outlet := by rw [← found]
  have nonempty : 0 < buf.length := List.length_pos_of_ne_nil more
  rw [streamSendZc, streamDoSend, getOrCreateStream_some found]
  by_cases capped : outlet.txCap = 0
  · refine ⟨.done, ?_⟩
    dsimp only
    rw [if_pos ⟨capped, nonempty⟩, same]
  · have refused := SendBuf.appendBuf_closed valid closed buf (min len (min outlet.txCap buf.length))
      (!decide (outlet.txCap < buf.length) && fin) (by omega)
    exact ⟨.finalSize, by simp [capped, refused, Except.map, same]⟩

end

end Outlet

section Varints

variable {value less len shorter : Nat}

theorem varintLen_mono (le : less ≤ value) (known : varintLen value = some len) :
    ∃ shorter, varintLen less = some shorter ∧ shorter ≤ len := by
  grind [varintLen, maxVarInt]

theorem putAll_writes {values : List Nat} (bounded : ∀ value ∈ values, value < 2 ^ 62) :
    Writes Octets.tape (Sender.putAll values) (values.flatMap Octets.varint) () := by
  induction values with
  | nil => exact writes_pure ()
  | cons value values ih =>
    obtain ⟨first, others⟩ := List.forall_mem_cons.mp bounded
    exact (Octets.writes_putVarint first).bind (ih others)

theorem putVarints_eq {values : List Nat} {size : Nat} (bounded : ∀ value ∈ values, value < 2 ^ 62)
    (fits : (values.flatMap Octets.varint).length ≤ size) :
    Sender.putVarints size values = pure (values.flatMap Octets.varint) := by
  have room : (values.flatMap Octets.varint).length ≤ Octets.cap (.withSlice (List.replicate size 0)) := by
    simpa [Octets.withSlice, Octets.cap] using fits
  have written := Octets.append_written room
  rw [Sender.putVarints, putAll_writes bounded (.withSlice (List.replicate size 0)) room]
  show pure (Octets.append _ _).written = _
  rw [written]
  rfl

end Varints

namespace Sender

variable {sender middle next : Sender} {buf first second : List UInt8} {fin : Bool}

/-- What the stream accepted is in its buffer. -/
structure Sound (sender : Sender) : Prop where
  queued : ∀ send, sender.outlet.send = some send → SendBuf.Valid sender.accepted send
  unopened : sender.outlet.send = none → sender.accepted = []

/-- The stream exists, and that much can be sent on it as far as the capacity goes. -/
def Writable (sender : Sender) (room : Nat) : Prop :=
  ∃ send, sender.outlet.send = some send ∧ room ≤ sender.outlet.room send

/-- A FIN was accepted. -/
def Closed (sender : Sender) : Prop := ∃ send, sender.outlet.send = some send ∧ send.finOff ≠ none

/-- The transport accepted `bytes`. -/
structure Took (sender : Sender) (bytes : List UInt8) (fin : Bool) (next : Sender) : Prop where
  sound : next.Sound
  accepted : next.accepted = sender.accepted ++ bytes
  body : next.body = sender.body
  opened : fin = false → ∀ room, sender.Writable (bytes.length + room) → ¬ next.Closed ∧ next.Writable room

theorem Took.append (earlier : sender.Took first false middle) (later : middle.Took second fin next) :
    sender.Took (first ++ second) fin next where
  sound := later.sound
  accepted := by rw [later.accepted, earlier.accepted, List.append_assoc]
  body := later.body.trans earlier.body
  opened := by
    intro unended room writable
    rw [List.length_append, Nat.add_assoc] at writable
    exact later.opened unended room (earlier.opened rfl _ writable).2

theorem transport_ok {Value : Type} (call : Outlet → Option (Outlet × Except Quiche.Error Value))
    (taken : Value → List UInt8) {outlet : Outlet} {value : Value}
    (called : call sender.outlet = some (outlet, .ok value)) :
    transport call taken sender = .ok value { sender with outlet, accepted := sender.accepted ++ taken value } := by
  rw [transport, called]

theorem transport_refused {Value : Type} (call : Outlet → Option (Outlet × Except Quiche.Error Value))
    (taken : Value → List UInt8) {outlet : Outlet} {error : Quiche.Error}
    (called : call sender.outlet = some (outlet, .error error)) :
    transport call taken sender = .error (.error (.ofTransport error)) { sender with outlet } := by
  rw [transport, called]

theorem took_of_stored {send : SendBuf} {bytes : List UInt8} {buffered : SendBuf} (sound : sender.Sound)
    (found : sender.outlet.send = some send) (stored : SendBuf.Stored sender.accepted send bytes fin buffered) :
    sender.Took bytes fin
      { sender with
        outlet := { sender.outlet with send := some buffered, txCap := sender.outlet.txCap - bytes.length }
        accepted := sender.accepted ++ bytes } where
  sound := ⟨fun _ same => Option.some.inj same ▸ stored.valid, fun absent => nomatch absent⟩
  accepted := rfl
  body := rfl
  opened := by
    intro unended more writable
    obtain ⟨_, same, enough⟩ := writable
    obtain rfl := Option.some.inj (found.symm.trans same)
    constructor
    · rintro ⟨_, same, closed⟩
      obtain rfl := Option.some.inj same
      rw [stored.finOff, unended] at closed
      exact closed rfl
    · refine ⟨buffered, rfl, ?_⟩
      have limit := stored.maxData
      have before := (sound.queued send found).off_eq
      have later := stored.valid.off_eq
      rw [List.length_append] at later
      rw [Outlet.room] at enough ⊢
      dsimp only
      omega

theorem streamSend_took (buf : List UInt8) (sound : sender.Sound) (writable : sender.Writable buf.length)
    (open_ : ¬ sender.Closed) (fin : Bool) :
    ∃ next, streamSend buf fin sender = .ok buf.length next ∧ sender.Took buf fin next := by
  obtain ⟨send, found, enough⟩ := writable
  have unended : send.finOff = none := by
    by_contra ended
    exact open_ ⟨send, found, ended⟩
  obtain ⟨buffered, called, stored⟩ := Outlet.streamSend_room buf (Outlet.getOrCreateStream_some found)
    (sound.queued send found) unended enough fin
  have sent := transport_ok (fun outlet => outlet.streamSend buf fin) (fun sent => buf.take sent) called
  rw [List.take_length] at sent
  exact ⟨_, sent, took_of_stored sound found stored⟩

theorem streamSendZc_took (buf : List UInt8) (sound : sender.Sound) {len : Nat} (writable : sender.Writable len)
    (open_ : ¬ sender.Closed) (within : len ≤ buf.length) (whole : fin = true → len = buf.length)
    (accepts : 0 < len ∨ buf.length = 0) :
    ∃ remaining next, streamSendZc buf (some len) fin sender = .ok (len, remaining) next ∧
      sender.Took (buf.take len) fin next := by
  obtain ⟨send, found, enough⟩ := writable
  have unended : send.finOff = none := by
    by_contra ended
    exact open_ ⟨send, found, ended⟩
  obtain ⟨buffered, remaining, called, stored⟩ := Outlet.streamSendZc_room
    (Outlet.getOrCreateStream_some found) (sound.queued send found) unended within enough whole accepts
  have sent := transport_ok (fun outlet => outlet.streamSendZc buf (some len) fin)
    (fun sent => buf.take sent.1) called
  have took := took_of_stored sound found stored
  rw [List.length_take, Nat.min_eq_left within] at took
  exact ⟨remaining, _, sent, took⟩

theorem streamSend_closed (sound : sender.Sound) (closed : sender.Closed) (more : buf ≠ [] ∨ fin = false) :
    ∃ error, streamSend buf fin sender = .error (.error error) sender := by
  obtain ⟨send, found, ended⟩ := closed
  obtain ⟨error, refused⟩ := Outlet.streamSend_closed found (sound.queued send found) ended more
  exact ⟨_, transport_refused (fun outlet => outlet.streamSend buf fin) _ refused⟩

theorem streamSendZc_closed (sound : sender.Sound) (closed : sender.Closed) (more : buf ≠ []) {len : Nat}
    (accepts : 0 < len) (fin : Bool) :
    ∃ error, streamSendZc buf (some len) fin sender = .error (.error error) sender := by
  obtain ⟨send, found, ended⟩ := closed
  obtain ⟨error, refused⟩ := Outlet.streamSendZc_closed found (sound.queued send found) ended more accepts fin
  exact ⟨_, transport_refused (fun outlet => outlet.streamSendZc buf (some len) fin) _ refused⟩

theorem streamSend_next (buf : List UInt8) (sound : sender.Sound) {rest : Nat}
    (writable : sender.Writable (buf.length + rest)) (open_ : ¬ sender.Closed) :
    ∃ next, streamSend buf false sender = .ok buf.length next ∧ sender.Took buf false next ∧
      ¬ next.Closed ∧ next.Writable rest := by
  obtain ⟨send, found, enough⟩ := writable
  obtain ⟨next, sent, took⟩ := streamSend_took buf sound ⟨send, found, by omega⟩ open_ false
  exact ⟨next, sent, took, took.opened rfl rest ⟨send, found, enough⟩⟩

theorem streamSend_pair (first second : List UInt8) (sound : sender.Sound)
    (writable : sender.Writable (first.length + second.length)) (more : first ≠ []) (fin : Bool) :
    (∃ error, streamSend first false sender = .error (.error error) sender) ∨
      ∃ middle next, streamSend first false sender = .ok first.length middle ∧
        streamSend second fin middle = .ok second.length next ∧ sender.Took (first ++ second) fin next := by
  by_cases closed : sender.Closed
  · exact .inl (streamSend_closed sound closed (.inl more))
  · obtain ⟨middle, sent, took, stillOpen, rest⟩ := streamSend_next first sound writable closed
    obtain ⟨next, sentRest, tookRest⟩ := streamSend_took second took.sound rest stillOpen fin
    exact .inr ⟨middle, next, sent, sentRest, took.append tookRest⟩

theorem streamCapacity_cases (sound : sender.Sound) : (∃ error, streamCapacity sender = .error (.error error) sender) ∨
      ∃ cap, streamCapacity sender = .ok cap sender ∧ sender.Writable cap := by
  have same : { sender with accepted := sender.accepted ++ [] } = sender := by rw [List.append_nil]
  cases found : sender.outlet.send with
  | none =>
    have asked : sender.outlet.streamCapacity = some (.error (.invalidStreamState sender.outlet.streamId)) := by
      rw [Outlet.streamCapacity, found]
    have refused := transport_refused (fun outlet => outlet.streamCapacity.map fun cap => (outlet, cap))
      (fun _ => [])
      (congrArg (Option.map fun cap => (sender.outlet, cap)) asked)
    exact .inl ⟨_, refused⟩
  | some send =>
    have asked := Outlet.streamCapacity_eq found (sound.queued send found)
    have answered := transport_ok (fun outlet => outlet.streamCapacity.map fun cap => (outlet, cap))
      (fun _ => [])
      (congrArg (Option.map fun cap => (sender.outlet, cap)) asked)
    exact .inr ⟨_, answered.trans (congrArg _ same), send, found, Nat.le_refl _⟩

theorem streamWritable_cases (sound : sender.Sound) (len : Nat) :
    (∃ error, streamWritable len sender = .error (.error error) sender) ∨
      ∃ writable, streamWritable len sender = .ok writable sender ∧ (writable = true → sender.Writable len) := by
  have same : { sender with accepted := sender.accepted ++ [] } = sender := by rw [List.append_nil]
  cases found : sender.outlet.send with
  | none =>
    have asked : sender.outlet.streamWritable len = some (.error (.invalidStreamState sender.outlet.streamId)) := by
      rw [Outlet.streamWritable, Outlet.streamCapacity, found]
      rfl
    have refused := transport_refused
      (fun outlet => (outlet.streamWritable len).map fun writable => (outlet, writable)) (fun _ => [])
      (congrArg (Option.map fun writable => (sender.outlet, writable)) asked)
    exact .inl ⟨_, refused⟩
  | some send =>
    have asked : sender.outlet.streamWritable len = some (.ok (decide (sender.outlet.room send ≥ len))) := by
      rw [Outlet.streamWritable, Outlet.streamCapacity_eq found (sound.queued send found)]
      rfl
    have answered := transport_ok
      (fun outlet => (outlet.streamWritable len).map fun writable => (outlet, writable)) (fun _ => [])
      (congrArg (Option.map fun writable => (sender.outlet, writable)) asked)
    exact .inr ⟨_, answered.trans (congrArg _ same), fun enough => ⟨send, found, of_decide_eq_true enough⟩⟩

/-- What the stream accepted are whole frames that carry the body, and a FIN stands behind the last of them. -/
structure Framed (sender : Sender) : Prop where
  sound : sender.Sound
  frames : ∃ frames : List RawFrame, sender.accepted = frames.flatMap RawFrame.bytes ∧
    sender.body = frames.flatMap RawFrame.data ∧
    ∀ send final, sender.outlet.send = some send → send.finOff = some final →
      final = sender.accepted.length ∧ frames ≠ []

theorem Sound.final_eq (sound : sender.Sound) {send : SendBuf} {final : Nat}
    (found : sender.outlet.send = some send) (ended : send.finOff = some final) : final = sender.accepted.length := by
  have valid := sound.queued send found
  rw [valid.finOff_eq final ended, valid.off_eq]

theorem Framed.took (framed : sender.Framed) (more : List RawFrame) (nonempty : more ≠ [])
    (took : sender.Took (more.flatMap RawFrame.bytes) fin middle) (outlet : next.outlet = middle.outlet)
    (accepted : next.accepted = middle.accepted)
    (body : next.body = sender.body ++ more.flatMap RawFrame.data) : next.Framed := by
  obtain ⟨frames, flattened, carries, _⟩ := framed.frames
  have sound : next.Sound := by
    constructor
    · rw [outlet, accepted]
      exact took.sound.queued
    · rw [outlet, accepted]
      exact took.sound.unopened
  refine ⟨sound, frames ++ more, ?_, ?_, fun send final found ended => ⟨sound.final_eq found ended, ?_⟩⟩
  · rw [accepted, took.accepted, flattened, List.flatMap_append]
  · rw [body, carries, List.flatMap_append]
  · simp [nonempty]

theorem Framed.opened (framed : sender.Framed) (sound : next.Sound) (accepted : next.accepted = sender.accepted)
    (body : next.body = sender.body) (open_ : ¬ next.Closed) : next.Framed := by
  obtain ⟨frames, flattened, carries, _⟩ := framed.frames
  refine ⟨sound, frames, accepted.trans flattened, body.trans carries, fun send final found ended => ?_⟩
  exact absurd ⟨send, found, by simp [ended]⟩ open_

/-- A call that leaves what was sent as it is. -/
structure Idle (sender next : Sender) : Prop where
  outlet : next.outlet = sender.outlet
  accepted : next.accepted = sender.accepted
  body : next.body = sender.body

theorem idle_refl (sender : Sender) : sender.Idle sender := ⟨rfl, rfl, rfl⟩

theorem Idle.framed (idle : sender.Idle next) (framed : sender.Framed) : next.Framed := by
  obtain ⟨frames, accepted, body, ended⟩ := framed.frames
  constructor
  · constructor
    · rw [idle.outlet, idle.accepted]
      exact framed.sound.queued
    · rw [idle.outlet, idle.accepted]
      exact framed.sound.unopened
  · rw [idle.outlet, idle.accepted, idle.body]
    exact ⟨frames, accepted, body, ended⟩

section Quiet

variable {Value : Type} {call : Call Value}

/-- The call writes nothing to the stream. -/
def Quiet (call : Call Value) : Prop := ∀ sender : Sender, sender.Idle (after (call sender))

theorem Quiet.preserves (quiet : Quiet call) : Preserves Framed call :=
  ⟨fun sender framed => (quiet sender).framed framed⟩

theorem quiet_modify {change : Sender → Sender} (idle : ∀ sender : Sender, sender.Idle (change sender)) :
    Quiet (modify change) := idle

theorem forget_idle (sender : Sender) : sender.Idle sender.forget := by
  rw [forget]
  split
  · exact ⟨rfl, rfl, rfl⟩
  · exact idle_refl sender

@[simp] theorem refuseIf_false (error : Error) : refuseIf false error = pure () := rfl

theorem getStream_none (absent : sender.stream = none) :
    getStream sender = .error (.error .frameUnexpected) sender := by
  rw [getStream, absent]

theorem getStream_some {stream : Stream} (found : sender.stream = some stream) :
    getStream sender = .ok stream sender := by
  rw [getStream, found]

theorem quiet_refuseIf (condition : Bool) (error : Error) : Quiet (refuseIf condition error) := by
  intro sender
  cases condition <;> exact idle_refl sender

theorem quiet_getStream : Quiet getStream := by
  intro sender
  rw [getStream]
  split <;> exact idle_refl sender

theorem quiet_updateStream (change : Stream → Stream) : Quiet (updateStream change) :=
  quiet_modify fun _ => ⟨rfl, rfl, rfl⟩

theorem quiet_forgetIf (condition : Bool) : Quiet (forgetIf condition) := by
  refine quiet_modify fun sender => ?_
  split
  · exact forget_idle sender
  · exact idle_refl sender

theorem forgetOnError_ok {value : Value} (called : call sender = .ok value next) :
    forgetOnError call sender = .ok value next := by
  rw [forgetOnError, called]

theorem forgetOnError_error {error : Error} (called : call sender = .error (.error error) next) :
    forgetOnError call sender = .error (.error error) next.forget := by
  rw [forgetOnError, called]

end Quiet

section Headers

theorem greaseValue_lt (n : Fin 148764065110560899) : greaseValue n < 2 ^ 62 := by
  have := n.isLt
  rw [greaseValue]
  omega

/-- The two frames that `send_grease_frames` sends. -/
def greaseFrames (draw : Draw) : List RawFrame := [⟨⟨greaseValue draw.first, greaseValue_lt _⟩, [], by decide⟩,
    ⟨⟨greaseValue draw.second, greaseValue_lt _⟩, greasePayload, by decide⟩]

theorem greaseFrames_data (draw : Draw) : (greaseFrames draw).flatMap RawFrame.data = [] := by
  simp [greaseFrames, RawFrame.data, greaseValue, dataFrameTypeId]

theorem putVarint_eq (value : Nat) {len size : Nat} (known : varintLen value = some len) (fits : len ≤ size) :
    putVarints size [value] = pure (Octets.varint value) := by
  obtain ⟨bound, length, _⟩ := Octets.varintLen_spec known
  rw [putVarints_eq (by simpa using bound) (by simpa [length] using fits), List.flatMap_singleton]

theorem frameHeader_eq (type : Nat) {len typeLen lengthLen : Nat} (typed : varintLen type = some typeLen)
    (known : varintLen len = some lengthLen) (fits : typeLen + lengthLen ≤ 10) :
    putVarints 10 [type, len] = pure (Octets.varint type ++ Octets.varint len) := by
  obtain ⟨typeBound, typeLength, _⟩ := Octets.varintLen_spec typed
  obtain ⟨bound, length, _⟩ := Octets.varintLen_spec known
  have bounded : ∀ value ∈ [type, len], value < 2 ^ 62 :=
    List.forall_mem_cons.mpr ⟨typeBound, List.forall_mem_singleton.mpr bound⟩
  rw [putVarints_eq bounded (by simpa [typeLength, length] using fits), List.flatMap_cons, List.flatMap_singleton]

theorem varint_ne_nil {value len : Nat} (known : varintLen value = some len) : Octets.varint value ≠ [] := by
  obtain ⟨_, length, positive, _⟩ := Octets.varintLen_spec known
  intro nothing
  rw [nothing] at length
  rw [← length] at positive
  contradiction

theorem putGreaseFrames_framed (framed : sender.Framed) {draw : Draw} {len1 len2 : Nat}
    (first : varintLen (greaseValue draw.first) = some len1) (second : varintLen (greaseValue draw.second) = some len2)
    (writable : sender.Writable (len1 + (1 + (len2 + (1 + greasePayload.length))))) :
    (after (putGreaseFrames (greaseValue draw.first) (greaseValue draw.second) sender)).Framed := by
  obtain ⟨_, length1, _, short1⟩ := Octets.varintLen_spec first
  obtain ⟨_, length2, _, short2⟩ := Octets.varintLen_spec second
  rw [putGreaseFrames, putVarint_eq _ first short1, putVarint_eq _ second short2,
    putVarint_eq 0 rfl (by decide), putVarint_eq 18 rfl (by decide)]
  simp only [pure_bind]
  by_cases closed : sender.Closed
  · obtain ⟨error, refused⟩ := streamSend_closed framed.sound closed (.inl (varint_ne_nil first))
    rw [bind_error refused]
    exact framed
  · -- Each of the five writes leaves room for the ones after it.
    rw [← length1, ← length2] at writable
    obtain ⟨sender1, sent1, took1, open1, room1⟩ := streamSend_next _ framed.sound writable closed
    obtain ⟨sender2, sent2, took2, open2, room2⟩ := streamSend_next (Octets.varint 0) took1.sound room1 open1
    obtain ⟨sender3, sent3, took3, open3, room3⟩ := streamSend_next _ took2.sound room2 open2
    obtain ⟨sender4, sent4, took4, open4, room4⟩ := streamSend_next (Octets.varint 18) took3.sound room3 open3
    obtain ⟨sender5, sent5, took5⟩ := streamSend_took _ took4.sound room4 open4 false
    rw [bind_ok sent1, bind_ok sent2, bind_ok sent3, bind_ok sent4, bind_ok sent5]
    have bytes : (greaseFrames draw).flatMap RawFrame.bytes = Octets.varint (greaseValue draw.first) ++
        Octets.varint 0 ++ Octets.varint (greaseValue draw.second) ++ Octets.varint 18 ++ greasePayload := by
      simp [greaseFrames, RawFrame.bytes, greasePayload]
    have took := (((took1.append took2).append took3).append took4).append took5
    rw [← bytes] at took
    refine framed.took (greaseFrames draw) (by simp [greaseFrames]) took rfl rfl ?_
    rw [greaseFrames_data, List.append_nil]
    exact took.body

theorem sendGreaseFrames_preserves (draw : Draw) : Preserves Framed (sendGreaseFrames draw) := by
  constructor
  intro sender framed
  rw [sendGreaseFrames]
  rcases streamCapacity_cases framed.sound with ⟨error, refused⟩ | ⟨cap, answered, writable⟩
  · rw [bind_error (forgetOnError_error refused)]
    exact (forget_idle sender).framed framed
  · rw [bind_ok (forgetOnError_ok answered)]
    cases first : varintLen (greaseValue draw.first) with
    | none =>
      rw [varintLenOf, first]
      exact framed
    | some len1 =>
      cases second : varintLen (greaseValue draw.second) with
      | none =>
        rw [varintLenOf, varintLenOf, first, second]
        exact framed
      | some len2 =>
        rw [varintLenOf, varintLenOf, first, second]
        simp only [pure_bind]
        split
        · exact framed
        · obtain ⟨send, found, enough⟩ := writable
          exact putGreaseFrames_framed framed first second ⟨send, found, by omega⟩

theorem greaseOnce_preserves (draw : Draw) : Preserves Framed (greaseOnce draw) := by
  refine preserves_get.bind fun sender => .ite ?_ (preserves_pure _)
  exact (sendGreaseFrames_preserves draw).bind fun _ =>
    (quiet_modify fun _ => by exact ⟨rfl, rfl, rfl⟩).preserves

def headersFrame (headerBlock : List UInt8) (short : headerBlock.length < 2 ^ 62) : RawFrame :=
  ⟨⟨headersFrameTypeId, by decide⟩, headerBlock, short⟩

theorem sendHeaderBlock_preserves (headerBlock : List UInt8) (fin : Bool) :
    Preserves Framed (sendHeaderBlock headerBlock fin) := by
  constructor
  intro sender framed
  rw [sendHeaderBlock]
  cases known : varintLen headerBlock.length with
  | none =>
    rw [varintLenOf, varintLenOf, known]
    exact framed
  | some lengthLen =>
    obtain ⟨short, length, _, fits⟩ := Octets.varintLen_spec known
    rw [varintLenOf, varintLenOf, known]
    simp only [show varintLen headersFrameTypeId = some 1 from rfl, pure_bind]
    rcases streamWritable_cases framed.sound (1 + lengthLen + headerBlock.length) with
      ⟨error, refused⟩ | ⟨writable, answered, room⟩
    · rw [bind_error (forgetOnError_error refused)]
      exact (forget_idle sender).framed framed
    · rw [bind_ok (forgetOnError_ok answered)]
      cases writable with
      | false => exact framed
      | true =>
        have header := frameHeader_eq headersFrameTypeId rfl known (by omega)
        have typeLength : (Octets.varint headersFrameTypeId).length = 1 := rfl
        have fitting : sender.Writable
            ((Octets.varint headersFrameTypeId ++ Octets.varint headerBlock.length).length + headerBlock.length) := by
          rw [List.length_append, length, typeLength]
          exact room rfl
        have nonempty : Octets.varint headersFrameTypeId ++ Octets.varint headerBlock.length ≠ [] :=
          List.append_ne_nil_of_left_ne_nil (varint_ne_nil rfl) _
        show (after ((putVarints 10 [headersFrameTypeId, headerBlock.length] >>= _) sender)).Framed
        rw [header, pure_bind]
        rcases streamSend_pair _ headerBlock framed.sound fitting nonempty fin with
          ⟨error, refused⟩ | ⟨middle, next, sent, sentRest, took⟩
        · rw [bind_error refused]
          exact framed
        · rw [bind_ok sent, bind_ok sentRest]
          have frame : [headersFrame headerBlock short].flatMap RawFrame.bytes =
              Octets.varint headersFrameTypeId ++ Octets.varint headerBlock.length ++ headerBlock := by
            rw [List.flatMap_singleton]
            rfl
          have body : next.body = sender.body ++ [headersFrame headerBlock short].flatMap RawFrame.data := by
            rw [List.flatMap_singleton]
            exact took.body.trans (List.append_nil _).symm
          rw [← frame] at took
          have whole := framed.took _ (List.cons_ne_nil _ _) took rfl rfl body
          exact ((quiet_updateStream _).preserves.bind fun _ => (quiet_forgetIf fin).preserves).kept next whole

variable {Header : Type} {encode : List Header → Option (List UInt8)}

theorem sendHeaders_preserves (headers : List Header) (fin : Bool) (draw : Draw) :
    Preserves Framed (sendHeaders encode headers fin draw) := by
  refine (greaseOnce_preserves draw).bind fun _ => ?_
  refine Preserves.bind ?_ fun headerBlock => sendHeaderBlock_preserves headerBlock fin
  rw [encodeHeaderBlock]
  cases encode headers with
  | none => exact preserves_throw _
  | some headerBlock => exact preserves_pure _

theorem openStream_refused {failure : Failure} (refused : streamSend [] false sender = .error failure middle) :
    after (openStream sender) = { middle with stream := none } := by
  rw [openStream, refused]
  rcases failure with error | _
  · cases error <;> rfl
  · rfl

theorem framed_without (framed : sender.Framed) : { sender with stream := none : Sender }.Framed := by
  have idle : sender.Idle { sender with stream := none } := ⟨rfl, rfl, rfl⟩
  exact idle.framed framed

theorem openStream_preserves : Preserves Framed openStream := by
  constructor
  intro sender framed
  cases found : sender.outlet.send with
  | some send =>
    by_cases closed : sender.Closed
    · have more : ([] : List UInt8) ≠ [] ∨ false = false := .inr rfl
      obtain ⟨error, refused⟩ := streamSend_closed framed.sound closed more
      rw [openStream_refused refused]
      exact framed_without framed
    · have writable : sender.Writable (([] : List UInt8).length + 0) := ⟨send, found, Nat.zero_le _⟩
      obtain ⟨next, sent, took, open_, _⟩ := streamSend_next [] framed.sound writable closed
      rw [openStream, sent]
      exact framed.opened took.sound (took.accepted.trans (List.append_nil _)) took.body open_
  | none =>
    cases allowed : sender.outlet.mayOpen with
    | false =>
      have denied : sender.outlet.getOrCreateStream = .error .streamLimit := by
        rw [Outlet.getOrCreateStream, found, allowed]
        rfl
      have refused : sender.outlet.streamSend [] false = some (sender.outlet, .error .streamLimit) := by
        rw [Outlet.streamSend, Outlet.streamDoSend, denied]
      rw [openStream_refused (transport_refused (fun outlet => outlet.streamSend [] false) _ refused)]
      exact framed_without framed
    | true =>
      have created : sender.outlet.getOrCreateStream = .ok (.new sender.outlet.initialMaxData) := by
        rw [Outlet.getOrCreateStream, found, allowed]
        rfl
      obtain ⟨buffered, called, stored⟩ := Outlet.streamSend_room [] created
        (SendBuf.new_valid sender.outlet.initialMaxData.property) rfl (Nat.zero_le _) false
      have sent := transport_ok (fun outlet => outlet.streamSend [] false) (fun sent => List.take sent [])
        called
      rw [openStream, streamSend, sent]
      have nothing := framed.sound.unopened found
      refine framed.opened ⟨fun send same => ?_, fun absent => by cases absent⟩ (List.append_nil _) rfl ?_
      · obtain rfl := Option.some.inj same
        show SendBuf.Valid (sender.accepted ++ []) buffered
        rw [nothing]
        exact stored.valid
      · rintro ⟨send, same, closed⟩
        obtain rfl := Option.some.inj same
        exact closed stored.finOff

theorem sendRequest_preserves (headers : List Header) (fin : Bool) (draw : Draw) :
    Preserves Framed (sendRequest encode headers fin draw) := by
  refine preserves_get.bind fun sender => (quiet_refuseIf _ _).preserves.bind fun _ => ?_
  refine (quiet_modify fun _ => by exact ⟨rfl, rfl, rfl⟩).preserves.bind fun _ => openStream_preserves.bind fun _ => ?_
  refine (sendHeaders_preserves headers fin draw).bind fun _ => (quiet_refuseIf _ _).preserves.bind fun _ => ?_
  exact (quiet_modify fun _ => by exact ⟨rfl, rfl, rfl⟩).preserves

theorem sendResponse_preserves (headers : List Header) (fin : Bool) (draw : Draw) :
    Preserves Framed (sendResponse encode headers fin draw) := by
  refine quiet_getStream.preserves.bind fun stream => (quiet_refuseIf _ _).preserves.bind fun _ => ?_
  exact sendHeaders_preserves headers fin draw

theorem sendAdditionalHeaders_preserves (headers : List Header) (isTrailerSection fin : Bool) (draw : Draw) :
    Preserves Framed (sendAdditionalHeaders encode headers isTrailerSection fin draw) := by
  refine preserves_get.bind fun sender => (quiet_refuseIf _ _).preserves.bind fun _ => ?_
  refine quiet_getStream.preserves.bind fun stream => (quiet_refuseIf _ _).preserves.bind fun _ => ?_
  refine (sendHeaders_preserves headers fin draw).bind fun _ => ?_
  exact .ite (quiet_updateStream _).preserves (preserves_pure _)

end Headers

section Body

variable {Result : Type} {writeFn : List UInt8 → Nat → Bool → Call (Nat × Result)} {count : Result → Nat}
  {body : List UInt8}

/-- What `do_send_body` relies on: a write that fits sends the header and the bytes of the body behind
it and reports these, unless the stream has ended. -/
def Writes (body : List UInt8) (count : Result → Nat) (writeFn : List UInt8 → Nat → Bool → Call (Nat × Result)) :
    Prop := ∀ (sender : Sender) (header : List UInt8) (bodyLen : Nat) (fin : Bool), sender.Sound → header ≠ [] →
    bodyLen ≤ body.length → (fin = true → bodyLen = body.length) → (0 < bodyLen ∨ body = []) →
    sender.Writable (header.length + bodyLen) →
    (∃ error, writeFn header bodyLen fin sender = .error (.error error) sender) ∨
      ∃ result next, writeFn header bodyLen fin sender = .ok (bodyLen, result) next ∧
        count result = bodyLen ∧ sender.Took (header ++ body.take bodyLen) fin next

theorem writeBody_writes (body : List UInt8) : Writes body id (writeBody body) := by
  intro sender header bodyLen fin sound nonempty within whole accepts writable
  have length : (body.take bodyLen).length = bodyLen := by
    rw [List.length_take]
    omega
  rw [writeBody]
  rcases streamSend_pair header (body.take bodyLen) sound (by rwa [length]) nonempty fin with
    ⟨error, refused⟩ | ⟨middle, next, sent, sentRest, took⟩
  · exact .inl ⟨error, bind_error refused _⟩
  · rw [length] at sentRest
    refine .inr ⟨bodyLen, next, ?_, rfl, took⟩
    rw [bind_ok sent, bind_ok sentRest]
    rfl

theorem writeBodyZc_writes (body : List UInt8) (takesPrefix : Bool) :
    Writes body Prod.fst (writeBodyZc body takesPrefix) := by
  intro sender header bodyLen fin sound nonempty within whole accepts writable
  rw [writeBodyZc]
  have positive : 0 < header.length := List.length_pos_of_ne_nil nonempty
  by_cases closed : sender.Closed
  · cases takesPrefix with
    | true =>
      obtain ⟨error, refused⟩ := streamSendZc_closed sound closed
        (List.append_ne_nil_of_left_ne_nil nonempty body)
        (show 0 < bodyLen + header.length by omega) fin
      exact .inl ⟨error, bind_error refused _⟩
    | false =>
      obtain ⟨error, refused⟩ := streamSend_closed sound closed (.inl nonempty)
      exact .inl ⟨error, bind_error refused _⟩
  · right
    cases takesPrefix with
    | true =>
      rw [Nat.add_comm] at writable
      obtain ⟨remaining, next, sent, took⟩ := streamSendZc_took (header ++ body) sound writable closed
        (by rw [List.length_append]; omega)
        (fun ends => by rw [List.length_append, whole ends, Nat.add_comm]) (.inl (by omega))
      have part : (header ++ body).take (bodyLen + header.length) = header ++ body.take bodyLen := by
        rw [Nat.add_comm, List.take_length_add_append]
      have written : without (bodyLen + header.length) header = pure bodyLen := by
        rw [without, subChecked_of_le (Nat.le_add_left _ _), Nat.add_sub_cancel]
      rw [part] at took
      refine ⟨(bodyLen, remaining.getD (header ++ body)), next, ?_, rfl, took⟩
      show (streamSendZc (header ++ body) (some (bodyLen + header.length)) fin >>= _) sender = _
      rw [bind_ok sent]
      dsimp only
      rw [written]
      rfl
    | false =>
      obtain ⟨middle, sent, took, stillOpen, room⟩ := streamSend_next header sound writable closed
      obtain ⟨remaining, next, sentRest, tookRest⟩ := streamSendZc_took body took.sound room stillOpen within whole
        (accepts.imp id fun empty => by rw [empty]; rfl)
      refine ⟨(bodyLen, remaining.getD body), next, ?_, rfl, took.append tookRest⟩
      show (streamSend header false >>= _) sender = _
      rw [bind_ok sent, bind_ok sentRest]
      rfl

def dataFrame (bytes : List UInt8) (short : bytes.length < 2 ^ 62) : RawFrame :=
  ⟨⟨dataFrameTypeId, by decide⟩, bytes, short⟩

theorem sendDataFrame_framed (framed : sender.Framed) (writes : Writes body count writeFn) (fin : Bool)
    {lengthLen room : Nat} (known : varintLen body.length = some lengthLen)
    (writable : sender.Writable (1 + lengthLen + room)) :
    (reported body count (sendDataFrame body fin room writeFn sender)).Framed := by
  have shorter : min body.length room ≤ body.length := Nat.min_le_left _ _
  obtain ⟨partLen, partKnown, le⟩ := varintLen_mono shorter known
  obtain ⟨_, _, _, fits⟩ := Octets.varintLen_spec known
  obtain ⟨short, length, _⟩ := Octets.varintLen_spec partKnown
  rw [sendDataFrame]
  dsimp only
  cases nothing : min body.length room == 0 && !(min body.length room == body.length && fin) with
  | true => exact framed
  | false =>
    have accepts : 0 < min body.length room ∨ body = [] := by
      rcases Nat.eq_zero_or_pos (min body.length room) with zero | positive
      · right
        simp [zero] at nothing
        exact List.eq_nil_of_length_eq_zero nothing.1.symm
      · exact .inl positive
    have whole : (min body.length room == body.length && fin) = true → min body.length room = body.length :=
      fun ends => eq_of_beq (Bool.and_eq_true_iff.mp ends).1
    rw [refuseIf_false, pure_bind, frameHeader_eq dataFrameTypeId rfl partKnown (by omega), pure_bind]
    generalize (min body.length room == body.length && fin) = ends at whole
    have headerLength : (Octets.varint dataFrameTypeId ++ Octets.varint (min body.length room)).length =
        1 + partLen := by
      rw [List.length_append, length]
      rfl
    have fitting : sender.Writable
        ((Octets.varint dataFrameTypeId ++ Octets.varint (min body.length room)).length + min body.length room) := by
      obtain ⟨send, found, enough⟩ := writable
      exact ⟨send, found, by omega⟩
    rcases writes sender _ _ ends framed.sound (List.append_ne_nil_of_left_ne_nil (varint_ne_nil rfl) _) shorter
      whole accepts fitting with ⟨error, refused⟩ | ⟨result, next, sent, counted, took⟩
    · rw [bind_error refused]
      exact framed
    · rw [bind_ok sent]
      have partLength : (body.take (min body.length room)).length = min body.length room := by
        rw [List.length_take]
        omega
      have partShort : (body.take (min body.length room)).length < 2 ^ 62 := by omega
      have frame : [dataFrame (body.take (min body.length room)) partShort].flatMap RawFrame.bytes =
          Octets.varint dataFrameTypeId ++ Octets.varint (min body.length room) ++
            body.take (min body.length room) := by
        rw [List.flatMap_singleton, RawFrame.bytes]
        show Octets.varint dataFrameTypeId ++ Octets.varint (body.take _).length ++ body.take _ = _
        rw [partLength]
      rw [← frame] at took
      have idle := quiet_forgetIf (ends && min body.length room == body.length) next
      refine framed.took _ (List.cons_ne_nil _ _) took idle.outlet idle.accepted ?_
      have chunk : (after (forgetIf (ends && min body.length room == body.length) next)).body ++
          body.take (count result) = sender.body ++ body.take (min body.length room) := by
        rw [counted, idle.body, took.body]
      rw [List.flatMap_singleton]
      exact chunk

theorem doSendBody_framed (framed : sender.Framed) (writes : Writes body count writeFn) (fin : Bool) :
    (reported body count (doSendBody body fin writeFn sender)).Framed := by
  rw [doSendBody, get_bind]
  cases sender.outlet.streamId % 4 != 0 with
  | true => exact framed
  | false =>
  rw [refuseIf_false, pure_bind]
  cases known : sender.stream with
  | none =>
    rw [bind_error (getStream_none known)]
    exact framed
  | some stream =>
  rw [bind_ok (getStream_some known)]
  cases !stream.localInitialized || stream.trailersSent with
  | true => exact framed
  | false =>
  rw [refuseIf_false, pure_bind]
  cases empty : body.length == 0 && !fin with
  | true => exact framed
  | false =>
  rw [refuseIf_false, pure_bind]
  rw [varintLenOf, varintLenOf, show varintLen dataFrameTypeId = some 1 from rfl]
  cases lengths : varintLen body.length with
  | none => exact framed
  | some lengthLen =>
  obtain ⟨short, length, _, fits⟩ := Octets.varintLen_spec lengths
  simp only [pure_bind]
  rcases streamCapacity_cases framed.sound with ⟨error, refused⟩ | ⟨cap, answered, writable⟩
  · rw [bind_error (forgetOnError_error refused)]
    exact (forget_idle sender).framed framed
  rw [bind_ok (forgetOnError_ok answered)]
  cases headroom : decide (cap < 1 + lengthLen) with
  | true => exact framed
  | false =>
  rw [refuseIf_false, pure_bind]
  have enough : 1 + lengthLen ≤ cap := Nat.not_lt.mp (of_decide_eq_false headroom)
  obtain ⟨send, found, room⟩ := writable
  exact sendDataFrame_framed framed writes fin lengths ⟨send, found, by omega⟩

end Body

section Run

variable {Header : Type}

theorem learn_framed (framed : sender.Framed) (txCap : Nat) (maxData : Varint) (mayOpen finished : Bool) :
    (sender.learn txCap maxData mayOpen finished).Framed := by
  obtain ⟨frames, accepted, body, ended⟩ := framed.frames
  refine ⟨⟨?_, ?_⟩, frames, accepted, body, ?_⟩
  · intro send found
    obtain ⟨old, known, rfl⟩ := Option.map_eq_some_iff.mp found
    exact (framed.sound.queued old known).updateMaxData maxData.property
  · intro absent
    exact framed.sound.unopened (Option.map_eq_none_iff.mp absent)
  · intro send final found finalEnded
    obtain ⟨old, known, rfl⟩ := Option.map_eq_some_iff.mp found
    exact ended old final known finalEnded

theorem apply_framed (encode : List Header → Option (List UInt8)) (framed : sender.Framed) (op : Op Header) :
    (sender.apply encode op).Framed := by
  cases op with
  | sendRequest headers fin draw =>
    rw [apply]
    split
    · exact framed
    · exact (sendRequest_preserves headers fin draw).kept sender framed
  | sendResponse headers fin draw => exact (sendResponse_preserves headers fin draw).kept sender framed
  | sendAdditionalHeaders headers isTrailerSection fin draw =>
    exact (sendAdditionalHeaders_preserves headers isTrailerSection fin draw).kept sender framed
  | sendBody body fin => exact doSendBody_framed framed (writeBody_writes body) fin
  | sendBodyZc body takesPrefix fin => exact doSendBody_framed framed (writeBodyZc_writes body takesPrefix) fin
  | goaway id =>
    have idle : sender.Idle { sender with peerGoawayId := some id } := ⟨rfl, rfl, rfl⟩
    exact idle.framed framed
  | transport txCap maxData mayOpen finished => exact learn_framed framed txCap maxData mayOpen finished

theorem start_framed (isServer grease framesGreased : Bool) (streamId : Nat) (stream : Option Stream)
    (opened : Option Varint) (initialMaxData : Varint) :
    (start isServer grease framesGreased streamId stream opened initialMaxData).Framed := by
  refine ⟨⟨?_, fun _ => rfl⟩, [], rfl, rfl, ?_⟩
  · intro send found
    obtain ⟨maxData, _, rfl⟩ := Option.map_eq_some_iff.mp found
    exact SendBuf.new_valid maxData.property
  · intro send final found ended
    obtain ⟨maxData, _, rfl⟩ := Option.map_eq_some_iff.mp found
    contradiction

/-- Whatever is called on a request stream, with whatever capacity, the bytes on the stream are
complete frames, with the reported body bytes in the DATA frames and the FIN only at the end. -/
theorem output_framed (encode : List Header → Option (List UInt8)) (isServer grease framesGreased : Bool)
    (streamId : Nat) (stream : Option Stream) (opened : Option Varint) (initialMaxData : Varint)
    (ops : List (Op Header)) : ∃ final, (machine encode).run
        (start isServer grease framesGreased streamId stream opened initialMaxData) ops = some final ∧
      final.Framed := by
  have preserved : ∀ (sender : Sender) (op : Op Header), sender.Framed →
      ∃ next, (machine encode).step sender op = some next ∧ next.Framed :=
    fun sender op framed => ⟨_, rfl, apply_framed encode framed op⟩
  have initial := start_framed isServer grease framesGreased streamId stream opened initialMaxData
  exact (machine encode).run_total preserved initial ops

end Run

end Sender

end Quiche.H3
