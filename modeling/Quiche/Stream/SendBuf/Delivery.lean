import Quiche.Data.Machine
import Quiche.Octets
import Quiche.Stream.SendBuf.Emit
import Quiche.Stream.SendBuf.Loss

namespace Quiche.SendBuf

open Data

/-- The part of a stream that a packet carried. -/
structure SentFrame where
  off : Nat
  len : Nat
  fin : Bool
deriving DecidableEq

namespace SentFrame

def maxOff (frame : SentFrame) : Nat := frame.off + frame.len

/-- The frame carries the byte at the place. -/
def Covers (frame : SentFrame) (place : Nat) : Prop := frame.off ≤ place ∧ place < frame.maxOff

end SentFrame

inductive Event where
  | emitted (frame : SentFrame)
  | acked (frame : SentFrame)
  | lost (frame : SentFrame)
deriving DecidableEq

def frames (log : List Event) : List SentFrame := log.filterMap fun event => match event with
    | .emitted frame => some frame
    | _ => none

/-- No frame has carried the byte at the place. -/
def NeverEmitted (log : List Event) (place : Nat) : Prop := ∀ frame ∈ frames log, ¬ frame.Covers place

/-- The byte at the place was lost, and not emitted since. -/
def Lost : List Event → Nat → Prop
  | [], _ => False
  | .emitted frame :: log, place => ¬ frame.Covers place ∧ Lost log place
  | .lost frame :: log, place => frame.Covers place ∨ Lost log place
  | .acked _ :: log, place => Lost log place

/-- A call of the application or of the packet handlers. Acknowledgements and losses
name a frame by its place among those sent so far. -/
inductive Call where
  | write (data : List UInt8) (fin : Bool)
  | appendBuf (data : List UInt8) (cap : Nat) (fin : Bool)
  | emit (outLen : Nat)
  | ackAndDrop (index : Nat)
  | retransmit (index : Nat)
  | updateMaxData (limit : Varint)

def Call.request : Call → Option (Nat × Bool)
  | .write data fin => some (data.length, fin)
  | .appendBuf data cap fin => some (min cap data.length, fin)
  | _ => none

structure Session where
  send : SendBuf
  stream : List UInt8
  log : List Event

namespace Session

def start (maxData : Varint) : Session := ⟨new maxData, [], []⟩

def step (session : Session) : Call → Option Session
  | .write data fin => do
    let (send, result) ← session.send.write data fin
    match result with
    | .ok count => return { session with send, stream := session.stream ++ data.take count }
    | .error _ => return { session with send }
  | .appendBuf data cap fin => do
    let (send, result) ← session.send.appendBuf data cap fin
    match result with
    | .ok (count, _) => return { session with send, stream := session.stream ++ data.take count }
    | .error _ => return { session with send }
  | .emit outLen => do
    let (send, out, fin) ← session.send.emit outLen
    return { session with
      send, log := .emitted ⟨session.send.offFront, out.length, fin⟩ :: session.log }
  | .ackAndDrop index =>
    match (frames session.log)[index]? with
    | none => some session
    | some frame => do
      let send ← session.send.ackAndDrop frame.off frame.len
      return { session with send, log := .acked frame :: session.log }
  | .retransmit index =>
    match (frames session.log)[index]? with
    | none => some session
    | some frame => do
      let send ← session.send.retransmit frame.off frame.len
      return { session with send, log := .lost frame :: session.log }
  | .updateMaxData limit => some { session with send := session.send.updateMaxData limit }

def machine : Machine Session Call := ⟨step⟩

/-- The offset is still to be sent, or to be sent again. -/
def Owed (session : Session) (place : Nat) : Prop := place < session.stream.length ∧
    (NeverEmitted session.log place ∨ (Lost session.log place ∧ session.send.ackOff ≤ place))

/-- Frames are of what was written, and the bytes that are owed wait in the queue. -/
structure Faithful (session : Session) : Prop where
  valid : Valid session.stream session.send
  sent_le : ∀ frame ∈ frames session.log, frame.maxOff ≤ session.send.off
  acked_sent : ∀ frame, .acked frame ∈ session.log → frame ∈ frames session.log
  covered : ∀ place, Covered session.send.acked.iter place → ∃ frame ∈ frames session.log, frame.Covers place
  /-- Acknowledged ranges end where an acknowledged frame ended. -/
  ends : ∀ range ∈ session.send.acked.iter, ∃ frame, .acked frame ∈ session.log ∧ frame.maxOff = range.2
  waiting : ∀ place, place < session.stream.length → session.send.ackOff ≤ place →
    NeverEmitted session.log place ∨ Lost session.log place → Unread session.send.data place

variable {session : Session}

theorem start_faithful (maxData : Varint) : (start maxData).Faithful where
  valid := new_valid maxData.2
  sent_le := by simp [start, frames]
  acked_sent := by simp [start]
  covered := by
    intro place covered
    exact absurd covered (covered_nil place)
  ends := by
    intro range member
    exact absurd member List.not_mem_nil
  waiting := by simp [start]

section Steps

variable {next : SendBuf} {bytes out : List UInt8} {fin : Bool}

theorem frames_emitted (frame : SentFrame) (log : List Event) :
    frames (.emitted frame :: log) = frame :: frames log := rfl

section

variable (faithful : session.Faithful)

include faithful

theorem Faithful.append {len : Nat} (valid : Valid (session.stream ++ bytes) next)
    (appended : Appended session.send len fin bytes next) :
    Faithful { session with send := next, stream := session.stream ++ bytes } where
  valid := valid
  sent_le := by
    intro frame member
    show frame.maxOff ≤ next.off
    rw [appended.off]
    exact Nat.le_add_right_of_le (faithful.sent_le frame member)
  acked_sent := faithful.acked_sent
  covered := by
    show ∀ place, Covered next.acked.iter place → _
    rw [appended.acked]
    exact faithful.covered
  ends := by
    show ∀ range ∈ next.acked.iter, _
    rw [appended.acked]
    exact faithful.ends
  waiting := by
    intro place inside above reason
    have same : next.ackOff = session.send.ackOff := by rw [ackOff, ackOff, appended.acked]
    rw [appended.unread]
    have size := faithful.valid.off_eq
    by_cases old : place < session.stream.length
    · exact .inl (faithful.waiting place old (same ▸ above) reason)
    · simp only [List.length_append] at inside
      exact .inr (by omega)

theorem Faithful.emit {outLen : Nat} (valid : Valid session.stream next)
    (emitted : Emitted session.stream session.send outLen out fin next) : Faithful { session with
      send := next, log := .emitted ⟨session.send.offFront, out.length, fin⟩ :: session.log } where
  valid := valid
  sent_le := by
    intro frame member
    rw [frames_emitted] at member
    show frame.maxOff ≤ next.off
    rw [emitted.off]
    cases List.mem_cons.mp member with
    | inl same =>
      subst same
      exact emitted.end_le
    | inr member => exact faithful.sent_le frame member
  acked_sent := by
    intro frame member
    rw [frames_emitted]
    exact List.mem_cons_of_mem _ (faithful.acked_sent frame (by simpa using member))
  covered := by
    intro place covered
    rw [emitted.acked] at covered
    obtain ⟨frame, member, covers⟩ := faithful.covered place covered
    exact ⟨frame, List.mem_cons_of_mem _ member, covers⟩
  ends := by
    intro range member
    rw [emitted.acked] at member
    obtain ⟨frame, logged, same⟩ := faithful.ends range member
    exact ⟨frame, List.mem_cons_of_mem _ logged, same⟩
  waiting := by
    intro place inside above reason
    have same : next.ackOff = session.send.ackOff := by rw [ackOff, ackOff, emitted.acked]
    rw [same] at above
    rw [emitted.unread]
    cases reason with
    | inl never =>
      refine ⟨faithful.waiting place inside above (.inl ?_), never _ List.mem_cons_self⟩
      exact fun frame member => never frame (List.mem_cons_of_mem _ member)
    | inr lost => exact ⟨faithful.waiting place inside above (.inr lost.2), lost.1⟩

theorem Faithful.ackAndDrop {frame : SentFrame}
    (sent : frame ∈ frames session.log) (valid : Valid session.stream next)
    (acknowledged : Acknowledged session.send frame.off frame.len next) :
    Faithful { session with send := next, log := .acked frame :: session.log } where
  valid := valid
  sent_le := by
    intro other member
    show other.maxOff ≤ next.off
    rw [acknowledged.off_eq]
    exact faithful.sent_le other member
  acked_sent := by
    intro other member
    cases List.mem_cons.mp member with
    | inl same =>
      rw [Event.acked.inj same]
      exact sent
    | inr member => exact faithful.acked_sent other member
  covered := by
    intro place covered
    rw [acknowledged.iter, covered_insertRange (Nat.le_add_right _ _)
      faithful.valid.acked.separated.proper] at covered
    cases covered with
    | inl new => exact ⟨frame, sent, new⟩
    | inr old => exact faithful.covered place old
  ends := by
    intro range member
    rw [acknowledged.iter] at member
    cases insertRange_ends range member with
    | inl new => exact ⟨frame, List.mem_cons_self, new.symm⟩
    | inr holder =>
      obtain ⟨other, found, same⟩ := holder
      obtain ⟨earlier, logged, ends⟩ := faithful.ends other found
      exact ⟨earlier, List.mem_cons_of_mem _ logged, ends.trans same.symm⟩
  waiting := by
    intro place inside above reason
    exact acknowledged.unread place
      (faithful.waiting place inside (Nat.le_trans acknowledged.ackOff_le above) reason) above

theorem Faithful.retransmit {frame : SentFrame}
    (valid : Valid session.stream next) (requeued : Requeued session.send frame.off frame.len next) :
    Faithful { session with send := next, log := .lost frame :: session.log } where
  valid := valid
  sent_le := by
    intro other member
    show other.maxOff ≤ next.off
    rw [requeued.off_eq]
    exact faithful.sent_le other member
  acked_sent := by
    intro other member
    exact faithful.acked_sent other (by simpa using member)
  covered := by
    intro place covered
    rw [requeued.acked] at covered
    exact faithful.covered place covered
  ends := by
    intro range member
    rw [requeued.acked] at member
    obtain ⟨earlier, logged, same⟩ := faithful.ends range member
    exact ⟨earlier, List.mem_cons_of_mem _ logged, same⟩
  waiting := by
    intro place inside above reason
    have same : next.ackOff = session.send.ackOff := by rw [ackOff, ackOff, requeued.acked]
    rw [same] at above
    rcases reason with never | covers | lost
    · exact requeued.unread place (faithful.waiting place inside above (.inl never))
    · exact requeued.lost place covers.1 covers.2 above (faithful.valid.off_eq ▸ inside)
    · exact requeued.unread place (faithful.waiting place inside above (.inr lost))

end

/-- What a call to the buffer does to the session. -/
inductive Outcome (session : Session) : Call → Session → Prop where
  | unchanged (call : Call) : Outcome session call session
  | appended {call : Call} {len : Nat} {fin : Bool} {bytes : List UInt8} {next : SendBuf}
      (request : call.request = some (len, fin)) (result : Appended session.send len fin bytes next) :
      Outcome session call { session with send := next, stream := session.stream ++ bytes }
  | emitted {outLen : Nat} {out : List UInt8} {fin : Bool} {next : SendBuf}
      (result : Emitted session.stream session.send outLen out fin next) :
      Outcome session (.emit outLen) { session with
        send := next, log := .emitted ⟨session.send.offFront, out.length, fin⟩ :: session.log }
  | acked {index : Nat} {frame : SentFrame} {next : SendBuf} (sent : frame ∈ frames session.log)
      (result : Acknowledged session.send frame.off frame.len next) :
      Outcome session (.ackAndDrop index) { session with send := next, log := .acked frame :: session.log }
  | lost {index : Nat} {frame : SentFrame} {next : SendBuf}
      (result : Requeued session.send frame.off frame.len next) :
      Outcome session (.retransmit index) { session with send := next, log := .lost frame :: session.log }
  | limit (limit : Varint) :
      Outcome session (.updateMaxData limit) { session with send := session.send.updateMaxData limit }

theorem Faithful.step (faithful : session.Faithful) (call : Call) :
    ∃ next, session.step call = some next ∧ next.Faithful ∧ Outcome session call next := by
  cases call with
  | write data fin =>
    obtain ⟨next, result, written, refused | ⟨count, rfl, valid, appended⟩⟩ := write_spec faithful.valid data fin
    · obtain ⟨error, rfl, rfl⟩ := refused
      exact ⟨session, by simp [Session.step, written], faithful, .unchanged _⟩
    · exact ⟨_, by simp [Session.step, written], faithful.append valid appended, .appended rfl appended⟩
  | appendBuf data cap fin =>
    obtain ⟨next, result, written, refused | ⟨count, remainder, rfl, valid, appended⟩⟩ :=
      appendBuf_spec faithful.valid data cap fin
    · obtain ⟨error, rfl, rfl⟩ := refused
      exact ⟨session, by simp [Session.step, written], faithful, .unchanged _⟩
    · exact ⟨_, by simp [Session.step, written], faithful.append valid appended, .appended rfl appended⟩
  | emit outLen =>
    obtain ⟨next, out, fin, written, valid, emitted⟩ := emit_spec faithful.valid outLen
    exact ⟨_, by simp [Session.step, written], faithful.emit valid emitted, .emitted emitted⟩
  | ackAndDrop index =>
    cases found : (frames session.log)[index]? with
    | none => exact ⟨session, by simp [Session.step, found], faithful, .unchanged _⟩
    | some frame =>
      have sent := List.mem_of_getElem? found
      obtain ⟨next, done, valid, acknowledged⟩ := ackAndDrop_spec faithful.valid (faithful.sent_le frame sent)
      exact ⟨_, by simp [Session.step, found, done], faithful.ackAndDrop sent valid acknowledged,
        .acked sent acknowledged⟩
  | retransmit index =>
    cases found : (frames session.log)[index]? with
    | none => exact ⟨session, by simp [Session.step, found], faithful, .unchanged _⟩
    | some frame =>
      obtain ⟨next, done, valid, requeued⟩ := retransmit_spec faithful.valid frame.off frame.len
      exact ⟨_, by simp [Session.step, found, done], faithful.retransmit valid requeued, .lost requeued⟩
  | updateMaxData limit =>
    refine ⟨_, rfl, ?_, .limit limit⟩
    exact { faithful with valid := faithful.valid.updateMaxData limit.2 }

theorem run_faithful (maxData : Varint) (calls : List Call) :
    ∃ session, machine.run (start maxData) calls = some session ∧ session.Faithful := by
  apply machine.run_total
  · intro session call faithful
    obtain ⟨next, stepped, kept, _⟩ := Faithful.step faithful call
    exact ⟨next, stepped, kept⟩
  · exact start_faithful maxData

end Steps

section Emission

/-- The queue is a gap-free row of buffers up to the end of the data, those before
the cursor consumed, and the next `emit` writes the stream from its start on. -/
structure EmitsStream (session : Session) : Prop where
  contiguous : ∃ base, Contiguous base session.send.data session.send.off
  consumed : ∀ buf ∈ session.send.data.take session.send.pos, buf.isEmpty = true
  emits : ∀ outLen, ∃ next out fin, session.send.emit outLen = some (next, out, fin) ∧
    out = (session.stream.drop session.send.offFront).take out.length ∧ out.length ≤ outLen ∧
    session.send.offFront + out.length ≤ session.send.maxData ∧
    (fin = true ↔ session.send.finOff = some (session.send.offFront + out.length))

theorem Faithful.emitsStream (faithful : session.Faithful) : session.EmitsStream where
  contiguous := by
    obtain ⟨base, _, queue⟩ := faithful.valid.contiguous
    exact ⟨base, queue⟩
  consumed := faithful.valid.consumed
  emits := by
    intro outLen
    obtain ⟨next, out, fin, written, _, emitted⟩ := emit_spec faithful.valid outLen
    exact ⟨next, out, fin, written, emitted.out_eq, emitted.length_le,
      Nat.le_trans emitted.end_le faithful.valid.off_le, emitted.fin_iff⟩

/-- In every state that a run reaches, `emit` writes exactly the accepted bytes from
its offset on. -/
theorem emission_faithful (maxData : Varint) (calls : List Call) :
    ∃ session, machine.run (start maxData) calls = some session ∧ session.EmitsStream := by
  obtain ⟨session, completed, faithful⟩ := run_faithful maxData calls
  exact ⟨session, completed, faithful.emitsStream⟩

end Emission

end Session

end Quiche.SendBuf
