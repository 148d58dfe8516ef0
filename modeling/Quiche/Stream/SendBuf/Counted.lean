import Quiche.Stream.SendBuf.FinalSize

namespace Quiche.SendBuf

open Data

variable {send next : SendBuf} {fin : Bool} {off len : Nat}

/-- The length changes with the bytes that are queued. -/
def Level (send next : SendBuf) : Prop := next.len + unreadLen send.data = send.len + unreadLen next.data

theorem Level.refl (send : SendBuf) : Level send send := rfl

theorem Level.trans {last : SendBuf} (first : Level send next) (second : Level next last) : Level send last := by
  unfold Level at *
  omega

section Write

variable {reserve filled : SendReserve}

theorem appendBuf_level {buf : List UInt8} (appended : reserve.appendBuf buf = .ok filled) :
    Level reserve.inner filled.inner := by
  rw [SendReserve.appendBuf] at appended
  dsimp only at appended
  split at appended
  · cases appended
  · cases appended
    simp only [Level, unreadLen_append, unreadLen_cons, unreadLen_nil, RangeBuf.fromBytes_len]
    omega

theorem appendBufs_level {bufs : List (List UInt8)} (appended : reserve.appendBufs bufs = .ok filled) :
    Level reserve.inner filled.inner := by
  induction bufs generalizing reserve with
  | nil =>
    cases appended
    exact .refl _
  | cons buf rest ih =>
    rw [SendReserve.appendBufs] at appended
    cases first : reserve.appendBuf buf with
    | error error =>
      rw [first] at appended
      cases appended
    | ok middle =>
      rw [first] at appended
      exact (appendBuf_level first).trans (ih appended)

theorem level_of_reserved {size : Nat} (reserved : send.reserveForWrite size fin = some (.ok reserve))
    (level : Level reserve.inner filled.inner)
    (total : filled.inner.off + filled.reserved = reserve.inner.off + reserve.reserved)
    (finished : filled.finish = some next) : Level send next ∧ next.off = send.off + reserve.reserved := by
  obtain ⟨empty, rfl⟩ := finish_spec finished
  obtain ⟨_, finOff, inner⟩ := reserveForWrite_frame reserved
  rw [inner] at level total
  exact ⟨level, by dsimp only at total; omega⟩

theorem storing_level {bufs : Nat → List (List UInt8)} {result : Except Error Nat} (none : bufs 0 = [])
    (stored : send.storing len fin bufs = some (next, result)) :
    Level send next ∧ (next.data = send.data ∨ send.off < next.off) := by
  obtain ⟨reservation, reserved, stored⟩ := Option.bind_eq_some_iff.mp stored
  cases reservation with
  | error error =>
    cases stored
    exact ⟨.refl send, .inl rfl⟩
  | ok reserve =>
    dsimp only at stored
    split at stored
    · cases stored
    rename_i filled appended
    obtain ⟨final, finished, stored⟩ := Option.bind_eq_some_iff.mp stored
    cases stored
    obtain ⟨level, moved⟩ := level_of_reserved reserved (appendBufs_level appended) (appendBufs_placed appended).2.1
      finished
    refine ⟨level, ?_⟩
    by_cases empty : reserve.reserved = 0
    · rw [empty, none] at appended
      cases appended
      obtain ⟨_, finOff, inner⟩ := reserveForWrite_frame reserved
      rw [(finish_spec finished).2, inner]
      exact .inl rfl
    · exact .inr (by omega)

end Write

section Emit

theorem unreadLen_set {data : List RangeBuf} {place : Nat} {buf : RangeBuf} (found : data[place]? = some buf)
    (other : RangeBuf) : unreadLen (data.set place other) + buf.len = unreadLen data + other.len := by
  induction data generalizing place with
  | nil => cases found
  | cons head rest ih =>
    cases place with
    | zero =>
      cases found
      rw [List.set_cons_zero, unreadLen_cons, unreadLen_cons]
      omega
    | succ place =>
      have summed := ih found
      rw [List.set_cons_succ, unreadLen_cons, unreadLen_cons]
      omega

theorem consume_len (buf : RangeBuf) {count : Nat} (bound : count ≤ buf.len) :
    (buf.consume count bound).len + count = buf.len := by
  have start := buf.start_le_pos
  have finish := buf.pos_le
  simp only [RangeBuf.len, RangeBuf.consume] at bound ⊢
  omega

theorem emitLoop_level {fuel outLen nextOff reached : Nat} {out result : List UInt8}
    (emitted : emitLoop fuel send outLen nextOff out = some (next, reached, result)) : Level send next := by
  induction fuel generalizing send outLen nextOff out with
  | zero => cases emitted
  | succ fuel ih =>
    rw [emitLoop] at emitted
    split at emitted
    · cases emitted
      exact .refl _
    split at emitted
    · cases emitted
      exact .refl _
    split at emitted
    · cases emitted
      exact .refl _
    rename_i buf found
    split at emitted
    · have moved : Level send { send with pos := send.pos + 1 } := .refl send
      exact moved.trans (ih emitted)
    dsimp only at emitted
    split at emitted
    · cases emitted
    rename_i count counted
    have taken := consume_len buf (Nat.min_le_left buf.len outLen)
    have replaced := unreadLen_set found (buf.consume (min buf.len outLen) (Nat.min_le_left _ _))
    have left : count + min buf.len outLen = send.len := (by have := subChecked_spec counted; omega)
    have level : Level send { send with
        data := send.data.set send.pos (buf.consume (min buf.len outLen) (Nat.min_le_left _ _)), len := count } := by
      unfold Level
      dsimp only
      omega
    split at emitted
    · cases emitted
      exact level
    · refine Level.trans ?_ (ih emitted)
      exact level

theorem emit_level {outLen : Nat} {out : List UInt8} (emitted : send.emit outLen = some (next, out, fin)) :
    Level send next := by
  obtain ⟨⟨moved, reached, sent⟩, looped, emitted⟩ := Option.bind_eq_some_iff.mp emitted
  cases emitted
  exact (emitLoop_level looped).trans (.refl moved)

end Emit

section Packets

variable {stream : List UInt8}

theorem retransmit_level (retransmitted : send.retransmit off len = some next) : Level send next := by
  rw [retransmit] at retransmitted
  split at retransmitted
  · cases retransmitted
    exact .refl _
  split at retransmitted
  · cases retransmitted
    exact .refl _
  obtain ⟨kept, grown, pos, looped, rewound, _⟩ := retransmitLoop_exists off (off + len) [] send.data send rfl
  cases looped.symm.trans retransmitted
  have waits := rewound.unreadLen_eq
  unfold Level
  dsimp only [List.nil_append]
  omega

/-- The buffers that an acknowledgment removes from the queue. -/
def ackDrops (send : SendBuf) (off len : Nat) : List RangeBuf :=
  match send.ack off len with
  | none => []
  | some send => if off > send.ackOff then [] else droppable send.data send.ackOff

theorem ackAndDrop_drops (acked : send.ackAndDrop off len = some next) :
    send.data = send.ackDrops off len ++ next.data ∧ next.len = send.len := by
  obtain ⟨marked, acking, acked⟩ := Option.bind_eq_some_iff.mp acked
  rw [ackDrops, acking]
  obtain ⟨ranges, rfl⟩ := ack_frame acking
  dsimp only at acked ⊢
  split at acked
  · rename_i empty
    cases acked
    rw [List.isEmpty_iff.mp empty]
    split
    · exact ⟨rfl, rfl⟩
    · exact ⟨rfl, rfl⟩
  split at acked
  · rename_i ahead
    cases acked
    rw [if_pos ahead]
    exact ⟨rfl, rfl⟩
  · rename_i reached
    cases acked
    rw [if_neg reached]
    exact ⟨(List.prefix_iff_eq_append.mp (List.takeWhile_prefix _)).symm, rfl⟩

theorem ackAndDrop_level (acked : send.ackAndDrop off len = some next)
    (read : ∀ buf ∈ send.ackDrops off len, buf.isEmpty = true) : Level send next := by
  obtain ⟨split, counter⟩ := ackAndDrop_drops acked
  unfold Level
  rw [split, unreadLen_append, unreadLen_of_isEmpty read, counter]
  omega

/-- Once all was acknowledged, nothing is queued. -/
def Tidy (send : SendBuf) : Prop := send.off ≤ send.ackOff → send.data = []

theorem ackAndDrop_tidy (valid : Valid stream send) (within : off + len ≤ send.off)
    (acked : send.ackAndDrop off len = some next) : next.Tidy := by
  obtain ⟨base, _, queue⟩ := valid.contiguous
  obtain ⟨marked, acking, acked⟩ := Option.bind_eq_some_iff.mp acked
  obtain ⟨ranges, rfl⟩ := ack_frame acking
  dsimp only at acked
  split at acked
  · rename_i empty
    cases acked
    exact fun _ => List.isEmpty_iff.mp empty
  split at acked
  · rename_i ahead
    cases acked
    intro done
    have reached : send.off ≤ { send with acked := ranges }.ackOff := done
    omega
  · cases acked
    intro done
    have reached : send.off ≤ { send with acked := ranges }.ackOff := done
    dsimp only
    rw [droppable_all queue reached, List.drop_length]

end Packets

section Reset

variable {size : Nat}

theorem Closed.reset (closed : send.Closed size) :
    ∃ next finalSize unsent, send.reset = some (next, finalSize, unsent) ∧ next.Closed size := by
  have below : ∀ range ∈ send.acked.iter, range.2 ≤ size := by
    intro range member
    rw [closed.iter, List.mem_singleton] at member
    rw [member]
  have small := closed.small
  obtain ⟨ranges, inserted, bounded, iter⟩ := closed.acked.insert (Nat.le_refl _) (Nat.zero_le (0 + size)) (by omega)
  rw [Nat.zero_add, insertRange_whole closed.acked.separated below] at iter
  refine ⟨{ send with finOff := some size, data := [], off := size, acked := ranges, pos := 0, len := 0 },
    send.emitOff, send.offBack - size, ?_, rfl, rfl, closed.emitOff, rfl, bounded, iter, closed.limit, small⟩
  have cut : max send.offFront send.emitOff = size := by rw [closed.offFront, closed.emitOff, Nat.max_self]
  rw [SendBuf.reset]
  simp only [cut, ack, inserted]
  rfl

theorem reset_len {finalSize unsent : Nat} (reset : send.reset = some (next, finalSize, unsent)) :
    next.len = 0 ∧ next.data = [] := by
  obtain ⟨marked, acking, reset⟩ := Option.bind_eq_some_iff.mp reset
  obtain ⟨ranges, rfl⟩ := ack_frame acking
  cases reset
  exact ⟨rfl, rfl⟩

end Reset

namespace Session

inductive CountedOp where
  | call (call : Call)
  | reset

def countedStep (session : Session) : CountedOp → Option Session
  | .call call => session.step call
  | .reset => do
    let (send, _, _) ← session.send.reset
    return { session with send }

def countedMachine : Machine Session CountedOp := ⟨countedStep⟩

/-- An acknowledgment removes no buffer with bytes that wait to be sent. -/
def DropsRead (session : Session) : CountedOp → Prop
  | .call (.ackAndDrop index) =>
    ∀ frame ∈ (frames session.log)[index]?, ∀ buf ∈ session.send.ackDrops frame.off frame.len, buf.isEmpty = true
  | _ => True

variable {session next : Session}

theorem step_level {call : Call} (stepped : session.step call = some next) (read : session.DropsRead (.call call)) :
    Level session.send next.send := by
  cases call with
  | write | appendBuf =>
    obtain ⟨_, _, stored, none, _⟩ := step_stored rfl stepped
    exact (storing_level none stored).1
  | emit outLen =>
    obtain ⟨⟨send, out, fin⟩, emitted, stepped⟩ := Option.bind_eq_some_iff.mp stepped
    cases stepped
    exact emit_level emitted
  | ackAndDrop index =>
    simp only [step] at stepped
    split at stepped
    · cases stepped
      exact .refl _
    · rename_i frame found
      obtain ⟨send, acked, stepped⟩ := Option.bind_eq_some_iff.mp stepped
      cases stepped
      exact ackAndDrop_level acked (read frame found)
  | retransmit index =>
    simp only [step] at stepped
    split at stepped
    · cases stepped
      exact .refl _
    · obtain ⟨send, requeued, stepped⟩ := Option.bind_eq_some_iff.mp stepped
      cases stepped
      exact retransmit_level requeued
  | updateMaxData limit =>
    cases stepped
    exact .refl session.send

theorem tidy_of_grown {last : SendBuf} (tidy : send.Tidy) (bounded : send.ackOff ≤ send.off)
    (acked : last.acked = send.acked) (off_le : send.off ≤ last.off)
    (grown : last.data = send.data ∨ send.off < last.off) : last.Tidy := by
  intro done
  have same : last.ackOff = send.ackOff := by rw [ackOff, ackOff, acked]
  rcases grown with kept | longer
  · rw [kept]
    exact tidy (by omega)
  · omega

theorem step_tidy {call : Call} (faithful : session.Faithful) (tidy : session.send.Tidy)
    (stepped : session.step call = some next) : next.send.Tidy := by
  have valid := faithful.valid
  obtain ⟨final, done, _, outcome⟩ := faithful.step call
  obtain rfl := Option.some.inj (stepped.symm.trans done)
  cases call with
  | write | appendBuf =>
    obtain ⟨_, _, stored, none, _⟩ := step_stored rfl stepped
    cases outcome with
    | unchanged => exact tidy
    | appended _ appended =>
      exact tidy_of_grown tidy valid.ackOff_le appended.acked (by rw [appended.off]; exact Nat.le_add_right _ _)
        (storing_level none stored).2
  | emit outLen =>
    obtain ⟨⟨send, out, fin⟩, emitted, stepped⟩ := Option.bind_eq_some_iff.mp stepped
    cases stepped
    obtain ⟨⟨moved, reached, sent⟩, looped, same⟩ := Option.bind_eq_some_iff.mp emitted
    obtain ⟨⟨_, _, _, frame⟩, _⟩ := emit_frame emitted
    intro done
    have empty : session.send.data = [] := tidy (by rw [frame] at done; exact done)
    cases same
    rw [emitLoop_empty empty looped]
    exact empty
  | ackAndDrop index =>
    simp only [step] at stepped
    split at stepped
    · cases stepped
      exact tidy
    · rename_i frame found
      obtain ⟨send, acked, stepped⟩ := Option.bind_eq_some_iff.mp stepped
      cases stepped
      exact ackAndDrop_tidy valid (faithful.sent_le frame (List.mem_of_getElem? found)) acked
  | retransmit index =>
    simp only [step] at stepped
    split at stepped
    · cases stepped
      exact tidy
    · obtain ⟨send, requeued, stepped⟩ := Option.bind_eq_some_iff.mp stepped
      cases stepped
      intro done
      obtain ⟨_, _, _, frame⟩ := retransmit_frame requeued
      have empty : session.send.data = [] := tidy (by rw [frame] at done; exact done)
      rw [SendBuf.retransmit, if_pos (by rw [empty]; rfl)] at requeued
      cases requeued
      exact empty
  | updateMaxData limit =>
    cases stepped
    exact tidy

/-- Before the first reset the queue is tidy, after it the send side is cut. -/
inductive Counted (session : Session) : Prop where
  | running (running : session.Running) (tidy : session.send.Tidy)
  | ended (stream : List UInt8) (size : Nat) (ended : session.Ended stream size)

theorem Counted.step (counted : session.Counted) (op : CountedOp) :
    ∃ next, countedMachine.step session op = some next ∧ next.Counted := by
  cases op with
  | call call =>
    cases counted with
    | running running tidy =>
      obtain ⟨next, stepped, faithful, _⟩ := running.faithful.step call
      obtain ⟨emitOff, same⟩ := step_emitOff stepped running.emitOff
      exact ⟨next, stepped, .running ⟨faithful, emitOff, same.trans running.open_⟩
        (step_tidy running.faithful tidy stepped)⟩
    | ended stream size ended =>
      obtain ⟨next, stepped, still⟩ := ended.step call
      exact ⟨next, stepped, .ended stream size still⟩
  | reset =>
    cases counted with
    | running running tidy =>
      have valid := running.faithful.valid
      obtain ⟨send, reset, closed⟩ := reset_closed running.offFront_le running.emitOff_le valid.off_le valid.small
        valid.acked running.acked_le
      refine ⟨{ session with send }, ?_, .ended session.stream session.send.emitOff ⟨closed, rfl, ?_⟩⟩
      · show (session.send.reset.bind _) = _
        rw [reset]
        rfl
      · rw [running.emitOff]
        exact fun frame member => le_sentEnd member
    | ended stream size ended =>
      obtain ⟨send, finalSize, unsent, reset, closed⟩ := ended.closed.reset
      refine ⟨{ session with send }, ?_, .ended stream size ⟨closed, ended.stream, ended.sent_le⟩⟩
      show (session.send.reset.bind _) = _
      rw [reset]
      rfl

theorem Counted.le_len (counted : session.Counted) : unreadLen session.send.data ≤ session.send.len := by
  cases counted with
  | running running tidy => exact running.faithful.valid.unreadLen_le
  | ended stream size ended =>
    rw [ended.closed.data]
    exact Nat.zero_le _

theorem Counted.isEmpty_iff (counted : session.Counted) :
    session.send.isEmpty = true ↔ session.send.off ≤ session.send.ackOff := by
  rw [SendBuf.isEmpty, List.isEmpty_iff]
  cases counted with
  | running running tidy =>
    refine ⟨fun empty => ?_, tidy⟩
    obtain ⟨base, below, queue⟩ := running.faithful.valid.contiguous
    rw [empty] at queue
    exact Nat.le_trans (Nat.le_of_eq queue.symm) below
  | ended stream size ended =>
    refine ⟨fun _ => ?_, fun _ => ended.closed.data⟩
    rw [ended.closed.off, ended.closed.ackOff]

theorem countedStep_level {op : CountedOp} (level : session.send.len = unreadLen session.send.data)
    (read : session.DropsRead op) (stepped : countedMachine.step session op = some next) :
    next.send.len = unreadLen next.send.data := by
  cases op with
  | call call =>
    have moved := step_level stepped read
    unfold Level at moved
    omega
  | reset =>
    obtain ⟨⟨send, finalSize, unsent⟩, reset, stepped⟩ := Option.bind_eq_some_iff.mp stepped
    cases stepped
    obtain ⟨counter, empty⟩ := reset_len reset
    dsimp only
    rw [counter, empty, unreadLen_nil]

/-- Every run returns, with the counter at least the bytes that wait, and at them in a run whose acknowledgments
remove only buffers that were sent. The queue is empty exactly when all data is acknowledged, and nothing waits then. -/
theorem len_counts_unread (maxData : Varint) (ops : List CountedOp) :
    ∃ session, countedMachine.run (start maxData) ops = some session ∧ unreadLen session.send.data ≤ session.send.len ∧
      (countedMachine.Guarded DropsRead (start maxData) ops → session.send.len = unreadLen session.send.data) ∧
      (session.send.isEmpty = true ↔ session.send.off ≤ session.send.ackOff) ∧
      (session.send.isEmpty = true → unreadLen session.send.data = 0) := by
  have initial : (start maxData).Counted := .running (start_running maxData) fun _ => rfl
  obtain ⟨session, reached, counted⟩ := countedMachine.run_total (fun _ op counted => Counted.step counted op) initial ops
  refine ⟨session, reached, counted.le_len, fun read => ?_, counted.isEmpty_iff, fun empty => ?_⟩
  · have kept : ∀ before op after, (fun session : Session => session.send.len = unreadLen session.send.data) before →
        DropsRead before op → countedMachine.step before op = some after →
        (fun session : Session => session.send.len = unreadLen session.send.data) after :=
      fun _ _ _ level read stepped => countedStep_level level read stepped
    exact countedMachine.run_keeps_of_guarded kept rfl read reached
  · rw [List.isEmpty_iff.mp empty, unreadLen_nil]

def acknowledgedLate : List CountedOp :=
  [.call (.write [1, 2, 3, 4, 5] false), .call (.emit 5), .call (.retransmit 0), .call (.ackAndDrop 0)]

/-- The counter still holds the bytes that were acknowledged while they waited, and a queue of bytes that were
all sent is not empty. -/
theorem len_not_unread : (¬ ∀ maxData ops session, countedMachine.run (start maxData) ops = some session →
      session.send.len = unreadLen session.send.data) ∧
    ¬ ∀ maxData ops session, countedMachine.run (start maxData) ops = some session →
      (session.send.isEmpty = true ↔ unreadLen session.send.data = 0) := by
  constructor
  · intro claimed
    obtain ⟨session, reached, differ⟩ : ∃ session ∈ countedMachine.run (start ⟨100, by decide⟩) acknowledgedLate,
        session.send.len ≠ unreadLen session.send.data := by
      decide +kernel
    exact differ (claimed _ _ session reached)
  · intro claimed
    obtain ⟨session, reached, differ⟩ :
        ∃ session ∈ countedMachine.run (start ⟨100, by decide⟩) (acknowledgedLate.take 2),
          ¬ (session.send.isEmpty = true ↔ unreadLen session.send.data = 0) := by
      decide +kernel
    exact differ (claimed _ _ session reached)

end Session

end Quiche.SendBuf
