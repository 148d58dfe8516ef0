import Quiche.Connection.Acknowledge

namespace Quiche

open Data PktNumSpace

namespace Exchange

variable {conn middle next : Exchange}

section Frames

/-- What processing one frame leaves as it was, and what it may add. -/
structure Framed (conn next : Exchange) : Prop where
  space : next.space = conn.space
  localError : next.localError = conn.localError
  dgramEnabled : next.dgramEnabled = conn.dgramEnabled
  queueMaxLen : next.dgramRecvQueue.queueMaxLen = conn.dgramRecvQueue.queueMaxLen
  entered : next.journal.entered = conn.journal.entered
  processed : next.journal.processed = conn.journal.processed
  created : next.journal.created = conn.journal.created
  filled : next.journal.filled = conn.journal.filled
  owing : next.journal.owing = conn.journal.owing
  acknowledged : ∀ ranges ∈ conn.journal.acknowledged, ranges ∈ next.journal.acknowledged
  flight : ∀ carrier ∈ next.flight, carrier ∈ conn.flight
  ackedFrames : ∀ ranges ∈ next.ackedFrames, ranges ∈ conn.ackedFrames ∨
    ranges ∈ next.journal.acknowledged ∧ ∃ carrier ∈ conn.flight, carrier.ranges = ranges

theorem Framed.refl (conn : Exchange) : Framed conn conn :=
  ⟨rfl, rfl, rfl, rfl, rfl, rfl, rfl, rfl, rfl, fun _ member => member, fun _ member => member, fun _ => .inl⟩

theorem Framed.trans (earlier : Framed conn middle) (later : Framed middle next) : Framed conn next where
  space := later.space.trans earlier.space
  localError := later.localError.trans earlier.localError
  dgramEnabled := later.dgramEnabled.trans earlier.dgramEnabled
  queueMaxLen := later.queueMaxLen.trans earlier.queueMaxLen
  entered := later.entered.trans earlier.entered
  processed := later.processed.trans earlier.processed
  created := later.created.trans earlier.created
  filled := later.filled.trans earlier.filled
  owing := later.owing.trans earlier.owing
  acknowledged := fun ranges member => later.acknowledged ranges (earlier.acknowledged ranges member)
  flight := fun carrier member => earlier.flight carrier (later.flight carrier member)
  ackedFrames := by
    intro ranges member
    rcases later.ackedFrames ranges member with before | ⟨listed, carrier, flying, same⟩
    · rcases earlier.ackedFrames ranges before with older | ⟨listed, source⟩
      · exact .inl older
      · exact .inr ⟨later.acknowledged ranges listed, source⟩
    · exact .inr ⟨listed, carrier, earlier.flight carrier flying, same⟩

theorem onAckReceived_framed (newlyAcked : List Nat) (conn : Exchange) :
    Framed conn (conn.onAckReceived newlyAcked) := by
  refine ⟨rfl, rfl, rfl, rfl, rfl, rfl, rfl, rfl, rfl, ?_, ?_, ?_⟩
  · exact fun ranges member => List.mem_append_right _ member
  · exact fun carrier member => (List.mem_filter.mp member).1
  · intro ranges member
    rcases List.mem_append.mp member with before | new
    · exact .inl before
    · obtain ⟨carrier, kept, rfl⟩ := List.mem_map.mp new
      obtain ⟨acked, _⟩ := List.mem_filter.mp kept
      exact .inr ⟨List.mem_append_left _ (List.mem_map_of_mem acked), carrier, (List.mem_filter.mp acked).1, rfl⟩

theorem processDatagram_framed (data : List UInt8) (conn : Exchange) :
    Framed conn (after (processDatagram data conn)) := by
  have emptied : (if conn.dgramRecvQueue.isFull then conn.dgramRecvQueue.pop
      else conn.dgramRecvQueue).queueMaxLen = conn.dgramRecvQueue.queueMaxLen := by
    split
    · exact conn.dgramRecvQueue.pop_queueMaxLen
    · rfl
  simp only [processDatagram]
  split
  · exact .refl conn
  · split
    · rename_i queue pushed
      exact { Framed.refl conn with queueMaxLen := (DatagramQueue.push_queueMaxLen pushed).trans emptied }
    · exact { Framed.refl conn with queueMaxLen := emptied }

theorem processFrame_framed (frame : Frame) (verdict : Verdict) (conn : Exchange) :
    Framed conn (after (processFrame frame verdict conn)) := by
  simp only [processFrame]
  split
  · exact .refl conn
  · exact .refl conn
  · exact processDatagram_framed _ conn
  · exact onAckReceived_framed _ conn
  · exact { Framed.refl conn with }
  · exact { Framed.refl conn with }
  · exact .refl conn
  · exact .refl conn

theorem processFrames_framed (malformed : Option { reason : Error // reason ≠ .done })
    (frames : List (Frame × Verdict)) (ackElicited : Bool) (conn : Exchange) :
    Framed conn (after (processFrames malformed frames ackElicited conn)) := by
  induction frames generalizing ackElicited conn with
  | nil =>
    cases malformed with
    | none => exact .refl conn
    | some reason => exact .refl conn
  | cons entry rest ih =>
    obtain ⟨frame, verdict⟩ := entry
    have first := processFrame_framed frame verdict conn
    rw [processFrames]
    cases processed : processFrame frame verdict conn with
    | ok value middle =>
      rw [processed] at first
      rw [bind_ok processed]
      exact first.trans (ih _ middle)
    | error fault middle =>
      rw [processed] at first
      rw [bind_error processed]
      exact first

/-- The frame is a `DATAGRAM` frame. -/
def IsDatagram (frame : Frame) : Prop := ∃ data, frame = .datagram data

instance (frame : Frame) : Decidable (IsDatagram frame) := by
  rcases frame with ⟨⟩
  case datagram data => exact .isTrue ⟨data, rfl⟩
  all_goals exact .isFalse (by rintro ⟨_, same⟩; cases same)

/-- A datagram of the frames finds a queue that can hold it. -/
def Stores (conn : Exchange) (frames : List (Frame × Verdict)) : Prop :=
  conn.dgramEnabled = true → (∃ entry ∈ frames, IsDatagram entry.1) → 0 < conn.dgramRecvQueue.queueMaxLen

instance (conn : Exchange) (frames : List (Frame × Verdict)) : Decidable (conn.Stores frames) :=
  inferInstanceAs (Decidable (conn.dgramEnabled = true → (∃ entry ∈ frames, IsDatagram entry.1) →
    0 < conn.dgramRecvQueue.queueMaxLen))

theorem processFrame_ne_done {frame : Frame} {verdict : Verdict} (stores : conn.Stores [(frame, verdict)]) :
    processFrame frame verdict conn ≠ .error (.error .done) next := by
  intro failed
  simp only [processFrame] at failed
  split at failed
  · cases failed
  · cases failed
  · rename_i data
    simp only [processDatagram] at failed
    split at failed
    · cases failed
    · rename_i enabled
      have nonzero := stores (by simpa using enabled) ⟨_, List.mem_cons_self, data, rfl⟩
      obtain ⟨queue, pushed⟩ := DatagramQueue.push_pop_exists nonzero data
      rw [pushed] at failed
      cases failed
  · cases failed
  · cases failed
  · cases failed
  · cases failed
  · rename_i reason terminal _ _ _
    cases failed
    exact terminal rfl

theorem processFrames_ne_done {malformed : Option { reason : Error // reason ≠ .done }}
    {frames : List (Frame × Verdict)} {ackElicited : Bool} (stores : conn.Stores frames) :
    processFrames malformed frames ackElicited conn ≠ .error (.error .done) next := by
  induction frames generalizing ackElicited conn with
  | nil =>
    intro failed
    cases malformed with
    | none => cases failed
    | some reason =>
      obtain ⟨reason, terminal⟩ := reason
      cases failed
      exact terminal rfl
  | cons entry rest ih =>
    obtain ⟨frame, verdict⟩ := entry
    intro failed
    rw [processFrames] at failed
    have first := processFrame_framed frame verdict conn
    cases processed : processFrame frame verdict conn with
    | ok value middle =>
      rw [processed] at first
      rw [bind_ok processed] at failed
      apply ih ?_ failed
      intro enabled holder
      obtain ⟨later, member, datagram⟩ := holder
      rw [show middle.dgramRecvQueue.queueMaxLen = conn.dgramRecvQueue.queueMaxLen from first.queueMaxLen]
      exact stores (first.dgramEnabled.symm.trans enabled) ⟨later, List.mem_cons_of_mem _ member, datagram⟩
    | error fault middle =>
      rw [bind_error processed] at failed
      cases failed
      apply processFrame_ne_done ?_ processed
      intro enabled holder
      obtain ⟨later, member, datagram⟩ := holder
      cases List.mem_singleton.mp member
      exact stores enabled ⟨_, List.mem_cons_self, datagram⟩

end Frames

/-- The numbers to be acknowledged are those of processed packets; as long as the ranges were
never too many, they are all those above the ones that the peer knows to be acknowledged. -/
structure Acknowledging (conn : Exchange) : Prop where
  wellFormed : conn.space.WellFormed
  sound : ∀ value, Covered conn.space.recvPktNeedAck.iter value → value ∈ conn.journal.processed
  room : conn.journal.filled = false → conn.space.recvPktNeedAck.len < maxAckRanges
  complete : conn.journal.filled = false → ∀ value ∈ conn.journal.processed,
    Above conn.journal.acknowledged value → Covered conn.space.recvPktNeedAck.iter value
  pending : ∀ ranges ∈ conn.ackedFrames, ranges ∈ conn.journal.acknowledged ∧ ranges.Capped maxAckRanges
  flying : ∀ carrier ∈ conn.flight, carrier.ranges.Capped maxAckRanges
  created : ∀ ack ∈ conn.journal.created, ack.Truthful

/-- The connection is neither terminated nor closing with an error. -/
def isOpen (conn : Exchange) : Prop := conn.terminated = false ∧ conn.localError = none

/-- No packet is looked at twice, and every one that was is known as received, unless the
connection is closing. -/
structure Once (conn : Exchange) : Prop where
  distinct : conn.journal.entered.Nodup
  seen : conn.isOpen → ∀ pktNum ∈ conn.journal.entered, conn.space.recvPktNum.contains pktNum = true

/-- What owes an acknowledgement makes `ack_elicited` true. -/
def Owes (conn : Exchange) : Prop := conn.journal.owing = true → conn.space.ackElicited = true

section Receive

variable {packet : Arrival} {pktNum : Nat} {ackElicited : Bool}

theorem Acknowledging.framed (acknowledging : conn.Acknowledging) (framed : Framed conn next) : next.Acknowledging := by
  obtain ⟨wellFormed, sound, room, complete, pending, flying, created⟩ := acknowledging
  constructor
  · rw [framed.space]
    exact wellFormed
  · rw [framed.space, framed.processed]
    exact sound
  · rw [framed.space, framed.filled]
    exact room
  · rw [framed.space, framed.processed, framed.filled]
    intro unfilled value processed above
    exact complete unfilled value processed fun ranges listed => above ranges (framed.acknowledged ranges listed)
  · intro ranges member
    rcases framed.ackedFrames ranges member with before | ⟨listed, carrier, aloft, rfl⟩
    · exact ⟨framed.acknowledged ranges (pending ranges before).1, (pending ranges before).2⟩
    · exact ⟨listed, flying carrier aloft⟩
  · exact fun carrier member => flying carrier (framed.flight carrier member)
  · rw [framed.created]
    exact created

/-- What a packet that was processed to its end leaves. -/
structure Finished (conn next : Exchange) (pktNum : Nat) (ackElicited : Bool) : Prop where
  acknowledging : next.Acknowledging
  terminated : next.terminated = conn.terminated
  localError : next.localError = conn.localError
  entered : next.journal.entered = conn.journal.entered
  seen : ∀ number, conn.space.recvPktNum.contains number = true ∨ number = pktNum →
    next.space.recvPktNum.contains number = true
  owing : next.journal.owing = (conn.journal.owing || ackElicited)
  elicited : next.space.ackElicited = (conn.space.ackElicited || ackElicited)

theorem Acknowledging.finish (acknowledging : conn.Acknowledging) (small : pktNum < 2 ^ 62) (ackElicited : Bool) :
    ∃ next, finish pktNum ackElicited conn = .ok ⟨⟩ next ∧ Finished conn next pktNum ackElicited := by
  obtain ⟨wellFormed, sound, room, complete, pending, flying, created⟩ := acknowledging
  obtain ⟨left, stopped, pruned⟩ := wellFormed.stopAcknowledgingAll (fun ranges member => (pending ranges member).2)
  obtain ⟨space, recorded, result⟩ := pruned.wellFormed.record small ackElicited
  refine ⟨conn.recorded space pktNum ackElicited, by rw [Exchange.finish, stopped, Option.bind_some, recorded],
    ⟨⟨result.wellFormed, ?_, ?_, ?_, by simp [Exchange.recorded], flying, created⟩, rfl, rfl, rfl, ?_, rfl, ?_⟩⟩
  · intro value covered
    rcases result.acknowledged value covered with rfl | before
    · exact List.mem_cons_self
    · exact List.mem_cons_of_mem _ (sound value (pruned.acknowledged value before))
  · intro unfilled
    have least := (Bool.or_eq_false_iff.mp unfilled).2
    exact Nat.not_le.mp (of_decide_eq_false least)
  · intro unfilled value processed above
    have earlier := (Bool.or_eq_false_iff.mp unfilled).1
    have free : left.recvPktNeedAck.len < maxAckRanges := Nat.lt_of_le_of_lt pruned.length (room earlier)
    apply result.kept free
    rcases List.mem_cons.mp processed with same | before
    · exact .inl same
    · refine .inr (pruned.kept value (complete earlier value before above) ?_)
      exact fun ranges member => above ranges (pending ranges member).1
  · intro number either
    rw [← pruned.window] at either
    exact result.seen number either
  · show space.ackElicited = _
    rw [result.elicited, pruned.elicited]

theorem recvSingle_cases (packet : Arrival) (conn : Exchange) : (∃ fault, recvSingle packet conn = .error fault conn) ∨
      conn.isOpen ∧ conn.space.recvPktNum.contains packet.pktNum = false ∧
        ((∃ fault middle, processFrames packet.malformed packet.frames false (conn.enter packet.pktNum) =
            .error fault middle ∧ recvSingle packet conn = .error fault middle) ∨
          ∃ ackElicited middle, processFrames packet.malformed packet.frames false (conn.enter packet.pktNum) =
            .ok ackElicited middle ∧ recvSingle packet conn =
                (do finish packet.pktNum ackElicited; answer packet.settled : Action Unit) middle) := by
  rw [recvSingle, get_bind]
  split
  · exact .inl ⟨_, rfl⟩
  · rename_i going
    split
    · exact .inl ⟨_, rfl⟩
    · rename_i new
      split
      · exact .inl ⟨_, rfl⟩
      · cases routed : packet.route with
        | error reason => exact .inl ⟨_, rfl⟩
        | ok _ =>
          rw [Bool.or_eq_true, not_or] at going
          refine .inr ⟨⟨by simpa using going.1, by simpa using going.2⟩, by simpa using new, ?_⟩
          rw [answer, pure_bind, modify_bind]
          cases processed : processFrames packet.malformed packet.frames false (conn.enter packet.pktNum) with
          | error fault middle => exact .inl ⟨fault, middle, rfl, bind_error processed _⟩
          | ok ackElicited middle => exact .inr ⟨ackElicited, middle, rfl, bind_ok processed _⟩

/-- Closing changes nothing that acknowledgements rest on. -/
structure Closed (conn next : Exchange) : Prop where
  space : next.space = conn.space
  ackedFrames : next.ackedFrames = conn.ackedFrames
  flight : next.flight = conn.flight
  journal : next.journal = conn.journal
  open_ : next.isOpen → conn.isOpen

theorem close_closed (isApp : Bool) (conn : Exchange) : Closed conn (conn.close isApp) := by
  rw [close]
  split
  · exact ⟨rfl, rfl, rfl, rfl, id⟩
  · exact ⟨rfl, rfl, rfl, rfl, fun open_ => nomatch open_.2⟩

theorem not_open_close (isApp : Bool) (conn : Exchange) : ¬ (conn.close isApp).isOpen := by
  rw [close]
  split
  · rename_i ended
    intro open_
    simp [open_.1, open_.2] at ended
  · exact fun open_ => nomatch open_.2

theorem Closed.acknowledging (closed : Closed conn next) (acknowledging : conn.Acknowledging) : next.Acknowledging := by
  obtain ⟨wellFormed, sound, room, complete, pending, flying, created⟩ := acknowledging
  obtain ⟨space, ackedFrames, flight, journal, _⟩ := closed
  constructor <;> simp only [space, ackedFrames, flight, journal] <;> assumption

theorem Closed.once (closed : Closed conn next) (once : conn.Once) : next.Once where
  distinct := closed.journal ▸ once.distinct
  seen := by
    rw [closed.journal, closed.space]
    exact fun open_ => once.seen (closed.open_ open_)

theorem Closed.owes (closed : Closed conn next) (owes : conn.Owes) : next.Owes := by
  rw [Owes, closed.journal, closed.space]
  exact owes

/-- What `recv` makes of a packet: it is dropped, some of its frames are processed, or it is
recorded. -/
inductive Received (packet : Arrival) (conn next : Exchange) : Prop where
  | dropped (closed : Closed conn next)
  | failed (middle : Exchange) (open_ : conn.isOpen)
      (new : conn.space.recvPktNum.contains packet.pktNum = false)
      (framed : Framed (conn.enter packet.pktNum) middle) (closed : Closed middle next)
      (fatal : conn.Stores packet.frames → ¬ next.isOpen)
  | recorded (middle last : Exchange) (ackElicited : Bool) (open_ : conn.isOpen)
      (new : conn.space.recvPktNum.contains packet.pktNum = false)
      (framed : Framed (conn.enter packet.pktNum) middle)
      (finished : Finished middle last packet.pktNum ackElicited) (closed : Closed last next)

section

variable (acknowledging : conn.Acknowledging) (received : conn.recv packet = some next)

include acknowledging received

theorem Acknowledging.recv_cases : Received packet conn next := by
  have closing (fault : Fault) (middle : Exchange) (failed : recvSingle packet conn = .error fault middle) :
      Closed middle next ∧ (fault ≠ .error .done → ¬ next.isOpen) := by
    rw [recv, failed] at received
    split at received
    · contradiction
    · rename_i same
      cases same
      cases received
      refine ⟨⟨rfl, rfl, rfl, rfl, fun open_ => ⟨(Bool.or_eq_false_iff.mp open_.1).1, open_.2⟩⟩, ?_⟩
      exact fun other => absurd rfl other
    · rename_i same
      cases same
      cases received
      exact ⟨close_closed false _, fun _ => not_open_close false _⟩
    · contradiction
  rcases recvSingle_cases packet conn with ⟨fault, refused⟩ | ⟨open_, new, ⟨fault, middle, processed, failed⟩ |
    ⟨ackElicited, middle, processed, recorded⟩⟩
  · exact .dropped (closing fault conn refused).1
  · obtain ⟨closed, fatal⟩ := closing fault middle failed
    have framed := processFrames_framed packet.malformed packet.frames false (conn.enter packet.pktNum)
    rw [processed] at framed
    refine .failed middle open_ new framed closed fun stores => fatal ?_
    rintro rfl
    exact processFrames_ne_done (show (conn.enter packet.pktNum).Stores packet.frames from stores) processed
  · have framed := processFrames_framed packet.malformed packet.frames false (conn.enter packet.pktNum)
    rw [processed] at framed
    change Framed _ middle at framed
    have entered : (conn.enter packet.pktNum).Acknowledging := ⟨acknowledging.wellFormed, acknowledging.sound,
      acknowledging.room, acknowledging.complete, acknowledging.pending, acknowledging.flying, acknowledging.created⟩
    obtain ⟨last, completed, finished⟩ := (entered.framed framed).finish packet.small ackElicited
    rw [bind_ok completed] at recorded
    cases settled : packet.settled with
    | ok _ =>
      rw [recv, recorded, settled] at received
      cases received
      exact .recorded middle next ackElicited open_ new framed finished ⟨rfl, rfl, rfl, rfl, id⟩
    | error reason =>
      rw [settled] at recorded
      exact .recorded middle last ackElicited open_ new framed finished (closing _ last recorded).1

theorem Acknowledging.recv : next.Acknowledging := by
  have entered : (conn.enter packet.pktNum).Acknowledging := ⟨acknowledging.wellFormed, acknowledging.sound,
    acknowledging.room, acknowledging.complete, acknowledging.pending, acknowledging.flying, acknowledging.created⟩
  cases acknowledging.recv_cases received with
  | dropped closed => exact closed.acknowledging acknowledging
  | failed middle open_ new framed closed fatal => exact closed.acknowledging (entered.framed framed)
  | recorded middle last ackElicited open_ new framed finished closed =>
    exact closed.acknowledging finished.acknowledging

end

theorem Once.enter (once : conn.Once) (open_ : conn.isOpen)
    (new : conn.space.recvPktNum.contains pktNum = false) : (pktNum :: conn.journal.entered).Nodup := by
  refine List.nodup_cons.mpr ⟨fun entered => ?_, once.distinct⟩
  rw [once.seen open_ pktNum entered] at new
  cases new

theorem Once.recv (once : conn.Once) (acknowledging : conn.Acknowledging) (stores : conn.Stores packet.frames)
    (received : conn.recv packet = some next) : next.Once := by
  cases acknowledging.recv_cases received with
  | dropped closed => exact closed.once once
  | failed middle open_ new framed closed fatal =>
    refine ⟨?_, fun still => absurd still (fatal stores)⟩
    rw [closed.journal, framed.entered]
    exact once.enter open_ new
  | recorded middle last ackElicited open_ new framed finished closed =>
    have entered : next.journal.entered = packet.pktNum :: conn.journal.entered := by
      rw [closed.journal, finished.entered, framed.entered]
      rfl
    refine ⟨entered ▸ once.enter open_ new, fun _ pktNum member => ?_⟩
    rw [closed.space]
    apply finished.seen
    rw [framed.space]
    rw [entered] at member
    rcases List.mem_cons.mp member with same | before
    · exact .inr same
    · exact .inl (once.seen open_ pktNum before)

theorem Owes.recv (owes : conn.Owes) (acknowledging : conn.Acknowledging)
    (received : conn.recv packet = some next) : next.Owes := by
  cases acknowledging.recv_cases received with
  | dropped closed => exact closed.owes owes
  | failed middle open_ new framed closed fatal =>
    apply closed.owes
    rw [Owes, framed.owing, framed.space]
    exact owes
  | recorded middle last ackElicited open_ new framed finished closed =>
    apply closed.owes
    rw [Owes, finished.owing, finished.elicited, framed.owing, framed.space, Bool.or_eq_true, Bool.or_eq_true]
    exact fun either => either.imp_left owes

end Receive

section Send

variable {packet : Departure}

/-- Sending leaves the received packets as they are, and an ACK frame it creates says what they are. -/
structure Spared (conn next : Exchange) : Prop where
  needAck : next.space.recvPktNeedAck = conn.space.recvPktNeedAck
  window : next.space.recvPktNum = conn.space.recvPktNum
  localError : next.localError = conn.localError
  terminated : next.terminated = conn.terminated
  entered : next.journal.entered = conn.journal.entered
  processed : next.journal.processed = conn.journal.processed
  acknowledged : next.journal.acknowledged = conn.journal.acknowledged
  filled : next.journal.filled = conn.journal.filled
  ackedFrames : next.ackedFrames = conn.ackedFrames
  flight : ∀ carrier ∈ next.flight, carrier ∈ conn.flight ∨ carrier.ranges = conn.space.recvPktNeedAck
  created : ∀ ack ∈ next.journal.created, ack ∈ conn.journal.created ∨
    ack = ⟨conn.space.recvPktNeedAck, conn.journal.processed, conn.journal.acknowledged, conn.journal.filled⟩

theorem Spared.refl (conn : Exchange) : Spared conn conn :=
  ⟨rfl, rfl, rfl, rfl, rfl, rfl, rfl, rfl, rfl, fun _ => .inl, fun _ => .inl⟩

theorem Spared.trans (earlier : Spared conn middle) (later : Spared middle next) : Spared conn next where
  needAck := later.needAck.trans earlier.needAck
  window := later.window.trans earlier.window
  localError := later.localError.trans earlier.localError
  terminated := later.terminated.trans earlier.terminated
  entered := later.entered.trans earlier.entered
  processed := later.processed.trans earlier.processed
  acknowledged := later.acknowledged.trans earlier.acknowledged
  filled := later.filled.trans earlier.filled
  ackedFrames := later.ackedFrames.trans earlier.ackedFrames
  flight := by
    intro carrier member
    rcases later.flight carrier member with before | same
    · exact earlier.flight carrier before
    · exact .inr (same.trans earlier.needAck)
  created := by
    intro ack member
    rcases later.created ack member with before | same
    · exact earlier.created ack before
    · rw [earlier.needAck, earlier.processed, earlier.acknowledged, earlier.filled] at same
      exact .inr same

theorem Acknowledging.spared (acknowledging : conn.Acknowledging) (spared : Spared conn next) : next.Acknowledging := by
  obtain ⟨wellFormed, sound, room, complete, pending, flying, created⟩ := acknowledging
  constructor
  · exact ⟨spared.needAck ▸ wellFormed.capped, spared.window ▸ wellFormed.bounded⟩
  · rw [spared.needAck, spared.processed]
    exact sound
  · rw [spared.needAck, spared.filled]
    exact room
  · rw [spared.needAck, spared.processed, spared.acknowledged, spared.filled]
    exact complete
  · rw [spared.ackedFrames, spared.acknowledged]
    exact pending
  · intro carrier member
    rcases spared.flight carrier member with before | same
    · exact flying carrier before
    · rw [same]
      exact wellFormed.capped
  · intro ack member
    rcases spared.created ack member with before | rfl
    · exact created ack before
    · exact ⟨sound, complete⟩

theorem Once.spared (once : conn.Once) (spared : Spared conn next) : next.Once where
  distinct := spared.entered ▸ once.distinct
  seen := by
    rw [isOpen, spared.terminated, spared.localError, spared.entered, spared.window]
    exact once.seen

theorem onLostFrames_spared (conn : Exchange) : Spared conn conn.onLostFrames := { Spared.refl conn with }

def pushed (conn : Exchange) : Exchange := { conn.note with space := { conn.space with ackElicited := false } }

theorem note_spared (conn : Exchange) : Spared conn conn.note :=
  { Spared.refl conn with
    created := fun ack member => by
      rcases List.mem_cons.mp member with same | before
      · exact .inr same
      · exact .inl before }

theorem pushed_spared (conn : Exchange) : Spared conn conn.pushed := { note_spared conn with }

theorem createAck_cases (packet : Departure) (left : Nat) (conn : Exchange) :
    createAck packet left conn = .error .panic conn ∨
      (∃ middle, createAck packet left conn = .ok (none, 0) middle ∧ Spared conn middle ∧
        middle.journal.owing = conn.journal.owing ∧ middle.space.ackElicited = conn.space.ackElicited) ∨
      ∃ len, createAck packet left conn = .ok (some conn.space.recvPktNeedAck, len) conn.pushed ∧
        conn.ackLen packet left = some len := by
  rw [createAck, ackLen]
  split
  · split
    · exact .inl rfl
    · rename_i len length
      split
      · rename_i fits
        exact .inr (.inr ⟨len, rfl, by rw [length, Option.filter_some, if_pos fits]⟩)
      · exact .inr (.inl ⟨conn.note, rfl, note_spared conn, rfl, rfl⟩)
  · exact .inr (.inl ⟨conn, rfl, .refl conn, rfl, rfl⟩)

/-- Every identifier that is announced in a packet with `left` bytes can be announced. -/
def Announces (ids : ConnectionIdentifiers) : List Nat → Nat → Prop
  | [], _ => True
  | seqNum :: rest, left =>
    match ids.getNewConnectionIdFrameFor seqNum with
    | .error _ => False
    | .ok frame =>
      match frame.wireLen with
      | none => True
      | some len => len ≤ left → Announces ids rest (left - len)

instance decidableAnnounces (ids : ConnectionIdentifiers) : ∀ queue left, Decidable (Announces ids queue left)
  | [], _ => .isTrue trivial
  | seqNum :: rest, left =>
    match created : ids.getNewConnectionIdFrameFor seqNum with
    | .error _ => .isFalse (by simp [Announces, created])
    | .ok frame =>
      match length : frame.wireLen with
      | none => .isTrue (by simp [Announces, created, length])
      | some len =>
        have := decidableAnnounces ids rest (left - len)
        decidable_of_iff (len ≤ left → Announces ids rest (left - len)) (by simp [Announces, created, length])

theorem announceNewScids_ok {ids : ConnectionIdentifiers} {queue : List Nat} {left : Nat}
    (announces : Announces ids queue left) {current last : ConnectionIdentifiers}
    (same : ∀ seq, current.getNewConnectionIdFrameFor seq = ids.getNewConnectionIdFrameFor seq) {reason : Error} :
    ConnectionIdentifiers.announceNewScids queue left current ≠ .error (.error reason) last := by
  induction queue generalizing left current with
  | nil => exact nofun
  | cons seq rest ih =>
    intro failed
    rw [ConnectionIdentifiers.announceNewScids, get_bind, same seq] at failed
    rw [Announces] at announces
    cases created : ids.getNewConnectionIdFrameFor seq with
    | error other =>
      rw [created] at announces
      exact announces
    | ok frame =>
      simp only [created] at failed announces
      cases length : frame.wireLen with
      | none =>
        simp only [length] at failed
        cases failed
      | some len =>
        simp only [length] at failed announces
        by_cases fits : len ≤ left
        · simp only [if_pos fits, modify_bind] at failed
          let marked := current.markAdvertiseNewScidSeq seq false
          have marks : ∀ other, marked.getNewConnectionIdFrameFor other = ids.getNewConnectionIdFrameFor other :=
            fun other => same other
          cases continued : ConnectionIdentifiers.announceNewScids rest (left - len) marked with
          | ok pushed final =>
            rw [bind_ok continued] at failed
            cases failed
          | error fault final =>
            rw [bind_error continued] at failed
            cases failed
            exact ih (announces fits) marks continued
        · simp only [if_neg fits] at failed
          cases failed

/-- Sending that acknowledges nothing leaves what is owed. -/
structure Rest (conn next : Exchange) : Prop where
  spared : Spared conn next
  elicited : next.space.ackElicited = conn.space.ackElicited
  owing : next.journal.owing = true → conn.journal.owing = true

theorem rest_ids (conn : Exchange) (ids : ConnectionIdentifiers) : Rest conn { conn with ids := ids } :=
  ⟨{ Spared.refl conn with }, rfl, id⟩

theorem announce_rest (packet : Departure) (left : Nat) (conn : Exchange) :
    Rest conn (after (announce packet left conn)) := by
  rw [announce]
  split
  · split <;> exact rest_ids conn _
  · exact rest_ids conn conn.ids

variable {ack : Option RangeSet}

theorem onPacketSent_rest (own : ∀ ranges, ack = some ranges → ranges = conn.space.recvPktNeedAck) :
    Rest conn (conn.onPacketSent packet ack) := by
  refine ⟨{ Spared.refl conn with flight := ?_ }, rfl, fun owing => (Bool.and_eq_true_iff.mp owing).1⟩
  intro carrier member
  cases ack with
  | none => exact .inl member
  | some ranges =>
    rcases List.mem_cons.mp member with rfl | before
    · exact .inr (own ranges rfl)
    · exact .inl before

/-- Every `NEW_CONNECTION_ID` frame that is due can be built behind the ACK frame. -/
def AnnouncesBehind (packet : Departure) (left : Nat) (conn : Exchange) : Prop :=
  packet.pktType = .short → conn.localError = none →
    Announces conn.ids conn.ids.advertiseNewScidSeqs (left - probed packet left)

instance (packet : Departure) (left : Nat) (conn : Exchange) : Decidable (AnnouncesBehind packet left conn) :=
  inferInstanceAs (Decidable (packet.pktType = .short → conn.localError = none →
    Announces conn.ids conn.ids.advertiseNewScidSeqs (left - probed packet left)))

theorem announce_ok {left : Nat} (announces : AnnouncesBehind packet left conn) {reason : Error} :
    announce packet (left - probed packet left) conn ≠ .error (.error reason) next := by
  intro failed
  rw [announce] at failed
  split at failed
  · rename_i wanted
    simp only [Bool.and_eq_true, decide_eq_true_eq, Option.isNone_iff_eq_none] at wanted
    split at failed
    · cases failed
    · rename_i announced
      cases failed
      exact announceNewScids_ok (announces wanted.1 wanted.2) (fun _ => rfl) announced
  · cases failed

theorem Rest.trans (earlier : Rest conn middle) (later : Rest middle next) : Rest conn next where
  spared := earlier.spared.trans later.spared
  elicited := later.elicited.trans earlier.elicited
  owing := fun owing => earlier.owing (later.owing owing)

theorem sendOff_rest (own : ∀ ranges, ack = some ranges → ranges = conn.space.recvPktNeedAck)
    (quiet : Bool) : Rest conn (after (sendOff packet ack quiet conn)) := by
  rw [sendOff]
  split
  · exact ⟨.refl conn, rfl, id⟩
  · exact onPacketSent_rest own

theorem buildRest_rest {left : Nat} (own : ∀ ranges, ack = some ranges → ranges = conn.space.recvPktNeedAck) :
    Rest conn (after (buildRest packet ack left conn)) := by
  have first := announce_rest packet (left - probed packet left) conn
  rw [buildRest]
  cases announced : announce packet (left - probed packet left) conn with
  | ok pushed middle =>
    rw [announced] at first
    change Rest conn middle at first
    rw [bind_ok announced]
    exact first.trans (sendOff_rest (fun ranges same => (own ranges same).trans first.spared.needAck.symm) _)
  | error fault middle =>
    rw [announced] at first
    rw [bind_error announced]
    exact first

theorem buildRest_sends {ranges : RangeSet} {left : Nat} (announces : AnnouncesBehind packet left conn) :
    (∃ middle, buildRest packet (some ranges) left conn = .error .panic middle) ∨
      ∃ next, buildRest packet (some ranges) left conn = .ok ⟨⟩ next ∧ next.journal.owing = false := by
  rw [buildRest]
  cases announced : announce packet (left - probed packet left) conn with
  | ok pushed middle =>
    rw [bind_ok announced]
    exact .inr ⟨middle.onPacketSent packet (some ranges), rfl, Bool.and_false _⟩
  | error fault middle =>
    rw [bind_error announced]
    cases fault with
    | panic => exact .inl ⟨middle, rfl⟩
    | error reason => exact absurd announced (announce_ok announces)

theorem fill_spared (packet : Departure) (left : Nat) (conn : Exchange) :
    Spared conn (after (fill packet left conn)) := by
  rw [fill]
  rcases createAck_cases packet left conn with failed | ⟨middle, bare, spared, _⟩ | ⟨len, acknowledges, _⟩
  · rw [bind_error failed]
    exact .refl conn
  · rw [bind_ok bare]
    have rest : Rest middle (after (buildRest packet none (spaceLeft packet left 0) middle)) := buildRest_rest nofun
    exact spared.trans rest.spared
  · rw [bind_ok acknowledges]
    refine (pushed_spared conn).trans (buildRest_rest fun ranges same => ?_).spared
    cases same
    rfl

theorem send_spared (sent : conn.send packet = some next) : Spared conn next := by
  have spared : Spared conn (after (sendSingle packet conn)) := by
    rw [sendSingle]
    split
    · exact .refl conn
    · split
      · exact onLostFrames_spared conn
      · exact (onLostFrames_spared conn).trans (fill_spared packet _ _)
  rw [send] at sent
  split at sent
  · rename_i returned
    rw [returned] at spared
    cases sent
    exact spared
  · rename_i failed
    rw [failed] at spared
    cases sent
    exact spared
  · contradiction

/-- If the packet has room for the ACK frame, the frames behind it can be built. -/
def Carries (packet : Departure) (left : Nat) (conn : Exchange) : Prop :=
  ∀ len ∈ conn.ackLen packet left, AnnouncesBehind packet (spaceLeft packet left len) conn

instance (packet : Departure) (left : Nat) (conn : Exchange) : Decidable (conn.Carries packet left) :=
  inferInstanceAs (Decidable (∀ len ∈ conn.ackLen packet left, AnnouncesBehind packet (spaceLeft packet left len) conn))

theorem fill_owes {left : Nat} (owes : conn.Owes) (carries : conn.journal.owing = true → conn.Carries packet left) :
    (∃ middle, fill packet left conn = .error .panic middle) ∨ (after (fill packet left conn)).Owes := by
  rw [fill]
  rcases createAck_cases packet left conn with failed | ⟨middle, bare, _, owing, elicited⟩ | ⟨len, acknowledges, length⟩
  · rw [bind_error failed]
    exact .inl ⟨conn, rfl⟩
  · rw [bind_ok bare]
    have rest : Rest middle (after (buildRest packet none (spaceLeft packet left 0) middle)) := buildRest_rest nofun
    refine .inr fun still => ?_
    rw [rest.elicited, elicited]
    exact owes (owing.symm.trans (rest.owing still))
  · rw [bind_ok acknowledges]
    have own : ∀ ranges, some conn.space.recvPktNeedAck = some ranges → ranges = conn.pushed.space.recvPktNeedAck := by
      intro ranges same
      cases same
      rfl
    have rest : Rest conn.pushed (after (buildRest packet (some conn.space.recvPktNeedAck)
        (spaceLeft packet left len) conn.pushed)) := buildRest_rest own
    by_cases owing : conn.journal.owing = true
    · have behind : AnnouncesBehind packet (spaceLeft packet left len) conn.pushed := carries owing len length
      rcases buildRest_sends behind with ⟨last, failed⟩ | ⟨last, sent, settled⟩
      · exact .inl ⟨last, failed⟩
      · refine .inr fun still => ?_
        change (after (buildRest packet (some conn.space.recvPktNeedAck) (spaceLeft packet left len)
          conn.pushed)).journal.owing = true at still
        rw [sent] at still
        exact absurd (settled.symm.trans still) Bool.false_ne_true
    · exact .inr fun still => absurd (rest.owing still) owing

theorem Owes.send (owes : conn.Owes) (carries : conn.terminated = false → conn.journal.owing = true →
      ∀ left ∈ packet.room, conn.onLostFrames.Carries packet left)
    (sent : conn.send packet = some next) : next.Owes := by
  have lost : conn.onLostFrames.Owes := fun owing => Bool.or_eq_true_iff.mpr (.inl (owes owing))
  have outcome : (∃ middle, sendSingle packet conn = .error .panic middle) ∨ (after (sendSingle packet conn)).Owes := by
    rw [sendSingle]
    split
    · exact .inr owes
    · rename_i going
      split
      · exact .inr lost
      · rename_i left room
        exact fill_owes lost fun owing => carries (by simpa using going) owing left room
  rw [Exchange.send] at sent
  rcases outcome with ⟨middle, failed⟩ | owes
  · rw [failed] at sent
    cases sent
  · split at sent
    · rename_i returned
      rw [returned] at owes
      cases sent
      exact owes
    · rename_i failed
      rw [failed] at owes
      cases sent
      exact owes
    · contradiction

end Send

section Runs

/-- A packet that comes in can be stored, and one that goes out while an acknowledgement is due can be built. -/
def Admits (conn : Exchange) : Event → Prop
  | .recv packet => conn.Stores packet.frames
  | .send packet => conn.terminated = false → conn.journal.owing = true →
      ∀ left ∈ packet.room, conn.onLostFrames.Carries packet left
  | _ => True

instance (conn : Exchange) : DecidablePred conn.Admits
  | .recv packet => inferInstanceAs (Decidable (conn.Stores packet.frames))
  | .send packet => inferInstanceAs (Decidable (conn.terminated = false → conn.journal.owing = true →
      ∀ left ∈ packet.room, conn.onLostFrames.Carries packet left))
  | .lose _ | .identify _ | .close _ => .isTrue trivial

/-- No packet is processed twice, each ACK frame says what was received, and what is due is not forgotten. -/
structure Truthful (conn : Exchange) : Prop where
  once : conn.journal.entered.Nodup
  created : ∀ ack ∈ conn.journal.created, ack.Truthful
  due : conn.journal.owing = true → conn.space.ackElicited = true

/-- What every event preserves, and `Truthful` follows from. -/
structure Sound (conn : Exchange) : Prop where
  acknowledging : conn.Acknowledging
  once : conn.Once
  owes : conn.Owes

theorem Closed.sound (closed : Closed conn next) (sound : conn.Sound) : next.Sound :=
  ⟨closed.acknowledging sound.acknowledging, closed.once sound.once, closed.owes sound.owes⟩

theorem lose_acknowledging (acknowledging : conn.Acknowledging) (pktNum : Nat) : (conn.lose pktNum).Acknowledging := by
  obtain ⟨wellFormed, sound, room, complete, pending, flying, created⟩ := acknowledging
  refine ⟨wellFormed, sound, room, complete, pending, fun carrier member => ?_, created⟩
  obtain ⟨earlier, aloft, rfl⟩ := List.mem_map.mp member
  split
  · exact flying earlier aloft
  · exact flying earlier aloft

theorem Sound.step {event : Event} (sound : conn.Sound) (admits : conn.Admits event)
    (stepped : machine.step conn event = some next) : next.Sound := by
  cases event with
  | recv packet =>
    exact ⟨sound.acknowledging.recv stepped, sound.once.recv sound.acknowledging admits stepped,
      sound.owes.recv sound.acknowledging stepped⟩
  | send packet =>
    have spared := send_spared stepped
    exact ⟨sound.acknowledging.spared spared, sound.once.spared spared, sound.owes.send admits stepped⟩
  | lose pktNum =>
    cases stepped
    exact ⟨lose_acknowledging sound.acknowledging pktNum, ⟨sound.once.distinct, sound.once.seen⟩, sound.owes⟩
  | identify call =>
    obtain ⟨ids, _, same⟩ := Option.bind_eq_some_iff.mp stepped
    cases same
    have spared := (rest_ids conn ids).spared
    exact ⟨sound.acknowledging.spared spared, sound.once.spared spared, sound.owes⟩
  | close isApp =>
    cases stepped
    exact (close_closed isApp conn).sound sound

theorem new_sound (dgramEnabled : Bool) (dgramRecvMaxQueueLen : Nat) (ids : ConnectionIdentifiers) :
    (new dgramEnabled dgramRecvMaxQueueLen ids).Sound where
  acknowledging := {
    wellFormed := new_wellFormed
    sound := fun value covered => absurd covered (covered_nil value)
    room := fun _ => show 0 < maxAckRanges by decide
    complete := fun _ value processed => nomatch processed
    pending := fun ranges member => nomatch member
    flying := fun carrier member => nomatch member
    created := fun ack member => nomatch member }
  once := ⟨List.nodup_nil, fun _ pktNum member => nomatch member⟩
  owes := fun owing => nomatch owing

theorem acknowledgements_truthful (dgramEnabled : Bool) (dgramRecvMaxQueueLen : Nat) (ids : ConnectionIdentifiers)
    {events : List Event} (admits : machine.Guarded Admits (new dgramEnabled dgramRecvMaxQueueLen ids) events)
    (completed : machine.run (new dgramEnabled dgramRecvMaxQueueLen ids) events = some conn) : conn.Truthful := by
  have sound : conn.Sound := machine.run_keeps_of_guarded
    (fun state event next sound admits stepped => Sound.step sound admits stepped)
    (new_sound dgramEnabled dgramRecvMaxQueueLen ids) admits completed
  exact ⟨sound.once.distinct, sound.acknowledging.created, sound.owes⟩

def exchanged : List Event := [
  .recv ⟨0, by decide, .ok ⟨⟩, [(.ping none, .accepted [])], none, .ok ⟨⟩, false⟩,
  .recv ⟨0, by decide, .ok ⟨⟩, [(.ping none, .accepted [])], none, .ok ⟨⟩, false⟩,
  .send ⟨.short, some 1000, 1200, false, true, 5, [], false, 0⟩,
  .recv ⟨2, by decide, .ok ⟨⟩, [(.ack 0 (.new 68) none, .accepted [0]), (.datagram [7], .accepted [])], none,
    .ok ⟨⟩, false⟩]

theorem acknowledgements_truthful_exchanged :
    ∃ conn, machine.run (new true 1 (.new 2 [9] 0 none)) exchanged = some conn ∧ conn.Truthful :=
  exists_reached_of (fun _ => True) (by decide +kernel) fun _ completed _ =>
    acknowledgements_truthful true 1 (.new 2 [9] 0 none) (by decide +kernel) completed

/-- With a receive queue for no datagrams, a packet whose last frame is a DATAGRAM frame is not
recorded, and a copy of it is processed again. With an identifier that the peer retired before
it was found lost, a packet fails behind the ACK frame, which is then no longer due. -/
theorem acknowledgements_untruthful : (∃ conn, machine.run (new true 0 (.new 2 [9] 0 none)) [
      .recv ⟨0, by decide, .ok ⟨⟩, [(.maxData 100, .accepted []), (.datagram [7], .accepted [])], none, .ok ⟨⟩, false⟩,
      .recv ⟨0, by decide, .ok ⟨⟩, [(.maxData 100, .accepted []), (.datagram [7], .accepted [])], none, .ok ⟨⟩, false⟩]
        = some conn ∧ conn.isOpen ∧ ¬ conn.journal.entered.Nodup) ∧
    ∃ conn, machine.run (new true 1 (.new 2 [9] 0 none)) [
      .identify (.newScid [1] (some 7) true none false),
      .send ⟨.short, some 1000, 1200, false, true, 5, [], false, 0⟩, .identify (.retireScid 1 [9]),
      .identify (.markAdvertiseNewScidSeq 1 true),
      .recv ⟨0, by decide, .ok ⟨⟩, [(.ping none, .accepted [])], none, .ok ⟨⟩, false⟩,
      .send ⟨.short, some 1000, 1200, false, true, 5, [], false, 0⟩] = some conn ∧
        conn.isOpen ∧ conn.journal.owing = true ∧ conn.space.ackElicited = false := by
  refine ⟨⟨_, rfl, ⟨rfl, rfl⟩, by decide⟩, ⟨_, rfl, ⟨rfl, rfl⟩, rfl, rfl⟩⟩

end Runs

end Exchange

end Quiche
