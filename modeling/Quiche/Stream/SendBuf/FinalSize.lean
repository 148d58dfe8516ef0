import Quiche.Stream.SendBuf.Final

namespace Quiche.SendBuf

open Data

section Front

variable {stream : List UInt8} {send : SendBuf}

theorem Valid.offFront_le_unread (valid : Valid stream send) {place : Nat} (waits : Unread send.data place) :
    send.offFront ≤ place := by
  obtain ⟨base, _, queue⟩ := valid.contiguous
  obtain ⟨buf, member, covers⟩ := waits
  have whole := List.take_append_drop send.pos send.data
  have passed : ∀ other ∈ send.data.take send.pos, ¬ other.Covers place :=
    fun other found => not_covers_of_isEmpty (valid.consumed other found)
  rw [← whole] at member
  have ahead := (List.mem_append.mp member).resolve_left fun found => passed buf found covers
  rw [offFront]
  cases found : (send.data.drop send.pos).find? fun buf => !buf.isEmpty with
  | none =>
    have empty := List.find?_eq_none.mp found buf ahead
    exact absurd covers (not_covers_of_isEmpty (by simpa using empty))
  | some first =>
    obtain ⟨_, before, after, split, skipped⟩ := List.find?_eq_some_iff_append.mp found
    rw [split] at ahead whole
    rw [← whole] at queue
    obtain ⟨middle, _, rest⟩ := contiguous_append.mp queue
    obtain ⟨start, _, tail⟩ := contiguous_append.mp rest
    obtain ⟨_, _, following⟩ := tail
    show first.off ≤ place
    rcases List.mem_append.mp ahead with earlier | later
    · exact absurd covers (not_covers_of_isEmpty (by simpa using skipped buf earlier))
    rcases List.mem_cons.mp later with rfl | later
    · exact covers.1
    · have bound := (following.bounds buf later).1
      have ends := first.maxOff_eq_view
      have order := first.off_le_maxOff
      have placed := buf.viewOff_le_off
      have lower := covers.1
      omega

end Front

section Closed

variable {send next : SendBuf} {size off len : Nat}

/-- A send side that was cut at `size`: everything up to there counts as acknowledged. -/
structure Closed (send : SendBuf) (size : Nat) : Prop where
  data : send.data = []
  off : send.off = size
  emitOff : send.emitOff = size
  finOff : send.finOff = some size
  acked : send.acked.Bounded (2 ^ 62)
  iter : send.acked.iter = [(0, size)]
  limit : size ≤ send.maxData
  small : size < 2 ^ 62

section

variable (closed : send.Closed size)

include closed

theorem Closed.ackOff : send.ackOff = size := by
  rw [SendBuf.ackOff, closed.iter]
  rfl

theorem Closed.offFront : send.offFront = size := by
  rw [SendBuf.offFront, closed.data, List.drop_nil]
  exact closed.off

theorem Closed.reserveForWrite (len : Nat) (fin : Bool) :
    (∃ error, send.reserveForWrite len fin = some (.error error)) ∨
      ∃ last, send.reserveForWrite len fin = some (.ok ⟨send, 0, last⟩) := by
  have capacity : (∃ error, send.cap = some (.error error)) ∨ ∃ room, send.cap = some (.ok room) := by
    rw [cap]
    cases send.error with
    | some code => exact .inl ⟨_, rfl⟩
    | none => exact .inr ⟨_, by rw [subChecked_of_le (closed.off ▸ closed.limit)]; rfl⟩
  rw [SendBuf.reserveForWrite]
  rcases capacity with ⟨error, stopped⟩ | ⟨room, capacity⟩
  · rw [stopped]
    exact .inl ⟨error, rfl⟩
  · rw [capacity]
    simp only
    generalize (if len > room then false else fin) = last
    split
    · exact .inl ⟨_, rfl⟩
    · rename_i admitted
      rw [closed.finOff, closed.off, breaksFinal] at admitted
      have nothing : len = 0 ∧ last = true := by
        simp only [Bool.or_eq_true, decide_eq_true_eq, Bool.and_eq_true, beq_iff_eq, Bool.not_eq_eq_eq_not,
          Bool.not_true, not_or, not_and, Bool.not_eq_false] at admitted
        exact ⟨by omega, admitted.2 (by omega)⟩
      obtain ⟨rfl, rfl⟩ := nothing
      have known : some (send.off + 0) = send.finOff := by rw [Nat.add_zero, closed.off, closed.finOff]
      have settled : send.ackOff ≥ send.off + 0 := by rw [closed.ackOff, closed.off, Nat.add_zero]
      refine .inr ⟨true, ?_⟩
      rw [if_pos rfl, known]
      show some (Except.ok (SendReserve.mk send (if send.ackOff ≥ send.off + 0 then 0 else _) true)) = _
      rw [if_pos settled]

theorem Closed.write (data : List UInt8) (fin : Bool) :
    (∃ error, send.write data fin = some (send, .error error)) ∨ send.write data fin = some (send, .ok 0) := by
  rw [SendBuf.write]
  rcases closed.reserveForWrite data.length fin with ⟨error, refused⟩ | ⟨last, reserved⟩
  · rw [refused]
    exact .inl ⟨error, rfl⟩
  · rw [reserved]
    exact .inr rfl

theorem Closed.appendBuf (data : List UInt8) (cap : Nat) (fin : Bool) :
    (∃ error, send.appendBuf data cap fin = some (send, .error error)) ∨
      send.appendBuf data cap fin = some (send, .ok (0, some data)) := by
  rw [SendBuf.appendBuf]
  rcases closed.reserveForWrite (min cap data.length) fin with ⟨error, refused⟩ | ⟨last, reserved⟩
  · rw [refused]
    exact .inl ⟨error, rfl⟩
  · rw [reserved]
    exact .inr rfl

theorem Closed.emit (outLen : Nat) : send.emit outLen = some (send, [], true) := by
  have stays : emitLoop (send.data.length - send.pos + 1) send outLen send.offFront [] = some (send, size, []) := by
    rw [closed.offFront, emitLoop]
    split
    · rfl
    · rw [if_pos (.inl (by rw [closed.data]; rfl))]
  have most : max send.emitOff size = send.emitOff := by rw [closed.emitOff, Nat.max_self]
  have final : (send.finOff == some size) = true := by rw [closed.finOff, beq_self_eq_true]
  rw [SendBuf.emit, stays]
  simp only [Option.bind_eq_bind, Option.bind_some, most, final]
  rfl

theorem Closed.ackAndDrop (sent : off + len ≤ size) :
    ∃ next, send.ackAndDrop off len = some next ∧ next.Closed size := by
  have small := closed.small
  obtain ⟨ranges, inserted, bounded, iter⟩ := closed.acked.insert (Nat.le_refl _) (Nat.le_add_right off len) (by omega)
  have same : ranges.iter = [(0, size)] := by
    rw [iter, closed.iter, insertRange, if_neg (by simp only; omega), if_neg (Nat.not_lt_zero _), insertRange,
      Nat.min_eq_right (Nat.zero_le _), Nat.max_eq_right sent]
  refine ⟨{ send with acked := ranges }, ?_, ?_⟩
  · rw [SendBuf.ackAndDrop, ack, inserted]
    simp only [Option.bind_eq_bind, Option.bind_some, closed.data]
    rfl
  · exact { closed with acked := bounded, iter := same }

theorem Closed.retransmit : send.retransmit off len = some send := by
  rw [SendBuf.retransmit, closed.data]
  rfl

theorem Closed.updateMaxData (limit : Nat) : (send.updateMaxData limit).Closed size :=
  { closed with limit := Nat.le_trans closed.limit (Nat.le_max_left _ _) }

end

theorem insertRange_whole {ranges : List (Nat × Nat)} (separated : Separated ranges)
    (below : ∀ range ∈ ranges, range.2 ≤ size) : insertRange 0 size ranges = [(0, size)] := by
  obtain ⟨upper, after, first, reaches⟩ :=
    insertRange_first (Nat.zero_le size) (fun range _ => Nat.zero_le range.1) separated.proper
  have within : ∀ range ∈ insertRange 0 size ranges, range.2 ≤ size := insertRange_le (Nat.le_refl size) below
  have ordered := separated.insertRange (Nat.zero_le size)
  rw [first] at within ordered ⊢
  obtain ⟨top, later⟩ := List.forall_mem_cons.mp within
  obtain rfl := Nat.le_antisymm top reaches
  obtain ⟨_, following, rest⟩ := separated_cons.mp ordered
  cases after with
  | nil => rfl
  | cons range others =>
    have beyond := following range List.mem_cons_self
    have proper := rest.proper range List.mem_cons_self
    have bound := later range List.mem_cons_self
    simp only at beyond bound
    omega

theorem reset_closed (front : send.offFront ≤ send.emitOff) (within : send.emitOff ≤ send.off)
    (limit : send.off ≤ send.maxData) (small : send.maxData < 2 ^ 62) (acked : send.acked.Bounded send.off)
    (below : ∀ range ∈ send.acked.iter, range.2 ≤ send.emitOff) :
    ∃ next, send.reset = some (next, send.emitOff, send.off - send.emitOff) ∧ next.Closed send.emitOff := by
  have cut : max send.offFront send.emitOff = send.emitOff := Nat.max_eq_right front
  obtain ⟨ranges, inserted, bounded, iter⟩ :=
    (acked.mono (Nat.le_of_lt (Nat.lt_of_le_of_lt limit small))).insert (Nat.le_refl _)
      (Nat.zero_le (0 + send.emitOff)) (by omega)
  rw [Nat.zero_add, insertRange_whole acked.separated below] at iter
  refine ⟨{ send with finOff := some send.emitOff, data := [], off := send.emitOff, acked := ranges, pos := 0, len := 0 },
    ?_, ?_⟩
  · rw [reset]
    simp only [cut, ack, inserted, offBack]
    rfl
  · have admitted := Nat.le_trans within limit
    exact ⟨rfl, rfl, rfl, rfl, bounded, iter, admitted, Nat.lt_of_le_of_lt admitted small⟩

end Closed

namespace Session

def sentEnd (log : List Event) : Nat := (frames log).foldr (fun frame most => max frame.maxOff most) 0

theorem le_sentEnd {log : List Event} {frame : SentFrame} (member : frame ∈ frames log) :
    frame.maxOff ≤ sentEnd log := by
  rw [sentEnd]
  generalize frames log = sent at member
  induction sent with
  | nil => cases member
  | cons first rest ih =>
    rw [List.foldr_cons]
    rcases List.mem_cons.mp member with rfl | later
    · exact Nat.le_max_left _ _
    · exact Nat.le_trans (ih later) (Nat.le_max_right _ _)

theorem sentEnd_le {log : List Event} {bound : Nat} (below : ∀ frame ∈ frames log, frame.maxOff ≤ bound) :
    sentEnd log ≤ bound := by
  rw [sentEnd]
  generalize frames log = sent at below
  induction sent with
  | nil => exact Nat.zero_le _
  | cons first rest ih =>
    obtain ⟨belowFirst, belowRest⟩ := List.forall_mem_cons.mp below
    exact Nat.max_le.mpr ⟨belowFirst, ih belowRest⟩

variable {session next : Session}

/-- The stream is not shut down, and what was emitted is a prefix. -/
structure Running (session : Session) : Prop where
  faithful : session.Faithful
  emitOff : session.send.emitOff = sentEnd session.log
  open_ : session.send.isShutdown = false

theorem start_running (maxData : Varint) : (start maxData).Running where
  faithful := start_faithful maxData
  emitOff := rfl
  open_ := rfl

theorem step_stored {call : Call} {len : Nat} {fin : Bool} (request : call.request = some (len, fin))
    (stepped : session.step call = some next) :
    ∃ bufs result, session.send.storing len fin bufs = some (next.send, result) ∧ bufs 0 = [] ∧ next.log = session.log := by
  cases call with
  | write data fin =>
    cases request
    obtain ⟨⟨send, result⟩, written, stepped⟩ := Option.bind_eq_some_iff.mp stepped
    rw [write_eq_storing] at written
    cases result <;> cases stepped <;> exact ⟨_, _, written, writeBufs_zero data, rfl⟩
  | appendBuf data cap fin =>
    cases request
    obtain ⟨⟨send, result⟩, appended, stepped⟩ := Option.bind_eq_some_iff.mp stepped
    cases result <;> cases stepped <;> exact ⟨_, _, storing_of_appendBuf appended, rfl, rfl⟩
  | _ => cases request

theorem step_emitOff {call : Call} (stepped : session.step call = some next)
    (emitOff : session.send.emitOff = sentEnd session.log) :
    next.send.emitOff = sentEnd next.log ∧ next.send.isShutdown = session.send.isShutdown := by
  cases call with
  | write | appendBuf =>
    obtain ⟨_, _, stored, none, log⟩ := step_stored rfl stepped
    obtain ⟨_, _, _, _, same⟩ := (storing_filled none stored).frame
    rw [same, log]
    exact ⟨emitOff, rfl⟩
  | emit outLen =>
    obtain ⟨⟨send, out, fin⟩, emitted, stepped⟩ := Option.bind_eq_some_iff.mp stepped
    obtain ⟨⟨_, _, _, rfl⟩, _⟩ := emit_frame emitted
    cases stepped
    refine ⟨?_, rfl⟩
    show max session.send.emitOff _ = max _ (sentEnd session.log)
    rw [emitOff, Nat.max_comm]
    rfl
  | ackAndDrop index =>
    simp only [step] at stepped
    split at stepped
    · cases stepped
      exact ⟨emitOff, rfl⟩
    · obtain ⟨send, acked, stepped⟩ := Option.bind_eq_some_iff.mp stepped
      obtain ⟨_, _, rfl⟩ := ackAndDrop_frame acked
      cases stepped
      exact ⟨emitOff, rfl⟩
  | retransmit index =>
    simp only [step] at stepped
    split at stepped
    · cases stepped
      exact ⟨emitOff, rfl⟩
    · obtain ⟨send, requeued, stepped⟩ := Option.bind_eq_some_iff.mp stepped
      obtain ⟨_, _, _, rfl⟩ := retransmit_frame requeued
      cases stepped
      exact ⟨emitOff, rfl⟩
  | updateMaxData limit =>
    cases stepped
    exact ⟨emitOff, rfl⟩

theorem run_running (maxData : Varint) (calls : List Call) :
    ∃ session, machine.run (start maxData) calls = some session ∧ session.Running := by
  have preserved (session : Session) (call : Call) (running : session.Running) :
      ∃ next, machine.step session call = some next ∧ next.Running := by
    obtain ⟨next, stepped, faithful, _⟩ := running.faithful.step call
    obtain ⟨emitOff, same⟩ := step_emitOff stepped running.emitOff
    exact ⟨next, stepped, faithful, emitOff, same.trans running.open_⟩
  exact machine.run_total preserved (start_running maxData) calls

theorem Running.emitOff_le (running : session.Running) : session.send.emitOff ≤ session.send.off := by
  rw [running.emitOff]
  exact sentEnd_le running.faithful.sent_le

theorem Running.offFront_le (running : session.Running) : session.send.offFront ≤ session.send.emitOff := by
  have valid := running.faithful.valid
  by_cases whole : session.send.off ≤ session.send.emitOff
  · exact Nat.le_trans valid.offFront_le whole
  have inside : session.send.emitOff < session.stream.length := valid.off_eq ▸ Nat.not_le.mp whole
  have never : NeverEmitted session.log session.send.emitOff := by
    intro frame member covers
    have bound := le_sentEnd member
    rw [← running.emitOff] at bound
    exact absurd covers.2 (Nat.not_lt.mpr bound)
  have waits : session.Owed session.send.emitOff := ⟨inside, .inl never⟩
  exact valid.offFront_le_unread (running.faithful.unread_of_owed waits)

theorem Running.acked_le (running : session.Running) :
    ∀ range ∈ session.send.acked.iter, range.2 ≤ session.send.emitOff := by
  intro range member
  obtain ⟨frame, acked, same⟩ := running.faithful.ends range member
  rw [← same, running.emitOff]
  exact le_sentEnd (running.faithful.acked_sent frame acked)

/-- How the send side of a stream is ended. -/
inductive Ending where
  | shutdown
  | stop (errorCode : Nat)

def Ending.apply : Ending → SendBuf → Option (SendBuf × Except Error (Nat × Nat))
  | .shutdown, send => send.shutdown
  | .stop errorCode, send => send.stop errorCode

theorem Running.ending (running : session.Running) (ending : Ending) :
    ∃ send unsent, ending.apply session.send = some (send, .ok (sentEnd session.log, unsent)) ∧
      sentEnd session.log + unsent = session.stream.length ∧ send.Closed (sentEnd session.log) := by
  have valid := running.faithful.valid
  have within := running.emitOff_le
  have total : session.send.emitOff + (session.send.off - session.send.emitOff) = session.stream.length := by
    rw [← valid.off_eq]
    omega
  rw [← running.emitOff]
  cases ending with
  | shutdown =>
    let marked : SendBuf := { session.send with isShutdown := true }
    have front : marked.offFront ≤ marked.emitOff := running.offFront_le
    obtain ⟨send, reset, closed⟩ := reset_closed front within valid.off_le valid.small valid.acked running.acked_le
    refine ⟨send, _, ?_, total, closed⟩
    rw [Ending.apply, SendBuf.shutdown, if_neg (by rw [running.open_]; decide), reset]
    rfl
  | stop errorCode =>
    obtain ⟨send, reset, closed⟩ :=
      reset_closed running.offFront_le within valid.off_le valid.small valid.acked running.acked_le
    refine ⟨{ send with error := some errorCode }, _, ?_, total, { closed with }⟩
    rw [Ending.apply, SendBuf.stop, if_neg (by rw [valid.running]; decide), reset]
    rfl

/-- The stream was shut down with the final size. -/
structure Ended (session : Session) (stream : List UInt8) (size : Nat) : Prop where
  closed : session.send.Closed size
  stream : session.stream = stream
  sent_le : ∀ frame ∈ frames session.log, frame.maxOff ≤ size

theorem Ended.step {stream : List UInt8} {size : Nat} (ended : session.Ended stream size) (call : Call) :
    ∃ next, session.step call = some next ∧ next.Ended stream size := by
  obtain ⟨closed, same, sent_le⟩ := ended
  cases call with
  | write data fin =>
    rcases closed.write data fin with ⟨error, refused⟩ | nothing
    · exact ⟨session, by simp only [Session.step, refused, Option.bind_eq_bind, Option.bind_some]; rfl,
        closed, same, sent_le⟩
    · refine ⟨session, ?_, closed, same, sent_le⟩
      simp only [Session.step, nothing, Option.bind_eq_bind, Option.bind_some, List.take_zero, List.append_nil]
      rfl
  | appendBuf data cap fin =>
    rcases closed.appendBuf data cap fin with ⟨error, refused⟩ | nothing
    · exact ⟨session, by simp only [Session.step, refused, Option.bind_eq_bind, Option.bind_some]; rfl,
        closed, same, sent_le⟩
    · refine ⟨session, ?_, closed, same, sent_le⟩
      simp only [Session.step, nothing, Option.bind_eq_bind, Option.bind_some, List.take_zero, List.append_nil]
      rfl
  | emit outLen =>
    refine ⟨{ session with log := .emitted ⟨session.send.offFront, 0, true⟩ :: session.log }, ?_, closed, same, ?_⟩
    · simp only [Session.step, closed.emit outLen, Option.bind_eq_bind, Option.bind_some]
      rfl
    · intro frame member
      rcases List.mem_cons.mp member with rfl | earlier
      · exact Nat.le_of_eq closed.offFront
      · exact sent_le frame earlier
  | ackAndDrop index =>
    cases found : (frames session.log)[index]? with
    | none => exact ⟨session, by simp only [Session.step, found], closed, same, sent_le⟩
    | some frame =>
      obtain ⟨send, acked, stillClosed⟩ := closed.ackAndDrop (sent_le frame (List.mem_of_getElem? found))
      refine ⟨{ session with send, log := .acked frame :: session.log }, ?_, stillClosed, same, sent_le⟩
      simp only [Session.step, found, acked, Option.bind_eq_bind, Option.bind_some]
      rfl
  | retransmit index =>
    cases found : (frames session.log)[index]? with
    | none => exact ⟨session, by simp only [Session.step, found], closed, same, sent_le⟩
    | some frame =>
      refine ⟨{ session with log := .lost frame :: session.log }, ?_, closed, same, sent_le⟩
      simp only [Session.step, found, closed.retransmit, Option.bind_eq_bind, Option.bind_some]
      rfl
  | updateMaxData limit => exact ⟨_, rfl, closed.updateMaxData limit, same, sent_le⟩

/-- What is left of a send side that was ended at `size`. -/
structure CutAt (send : SendBuf) (size : Nat) : Prop where
  finOff : send.finOff = some size
  off : send.off = size
  data : send.data = []
  ackOff : send.ackOff = size
  writes : ∀ data fin, (∃ error, send.write data fin = some (send, .error error)) ∨
    send.write data fin = some (send, .ok 0)

theorem cutAt_of_closed {send : SendBuf} {size : Nat} (closed : send.Closed size) : CutAt send size :=
  ⟨closed.finOff, closed.off, closed.data, closed.ackOff, closed.write⟩

/-- Ending a stream reports the largest offset that was ever sent and the bytes that were accepted beyond
it, and nothing is taken afterwards, whatever is called. -/
theorem ending_reports_sent (maxData : Varint) (calls : List Call) (ending : Ending) (later : List Call) :
    ∃ session send finalSize unsent final, machine.run (start maxData) calls = some session ∧
      ending.apply session.send = some (send, .ok (finalSize, unsent)) ∧
      finalSize = sentEnd session.log ∧ finalSize + unsent = session.stream.length ∧ CutAt send finalSize ∧
      machine.run { session with send } later = some final ∧
      CutAt final.send finalSize ∧ final.stream = session.stream := by
  obtain ⟨session, reached, running⟩ := run_running maxData calls
  obtain ⟨send, unsent, applied, total, closed⟩ := running.ending ending
  have preserved (state : Session) (call : Call) (ended : state.Ended session.stream (sentEnd session.log)) :
      ∃ next, machine.step state call = some next ∧ next.Ended session.stream (sentEnd session.log) := ended.step call
  have initial : Ended { session with send } session.stream (sentEnd session.log) :=
    ⟨closed, rfl, fun _ member => le_sentEnd member⟩
  obtain ⟨final, finished, ended⟩ := machine.run_total preserved initial later
  exact ⟨session, send, _, unsent, final, reached, applied, rfl, total, cutAt_of_closed closed, finished,
    cutAt_of_closed ended.closed, ended.stream⟩

end Session

end Quiche.SendBuf
