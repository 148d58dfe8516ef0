import Quiche.Stream
import Quiche.Stream.SendBuf.Completion
import Quiche.Stream.SendBuf.Tracked

namespace Quiche

open Data

namespace SendBuf

variable {stream : List UInt8} {send next : SendBuf} {off len outLen : Nat}

/-- The last byte is still to be sent, or to be sent again. -/
def TailUnread (send : SendBuf) : Prop := Unread send.data (send.off - 1)

instance (send : SendBuf) : Decidable send.TailUnread :=
  inferInstanceAs (Decidable (∃ buf ∈ send.data, buf.Covers (send.off - 1)))

/-- The FIN is known, and still to be sent with the end of the data. -/
structure Finishing (send : SendBuf) : Prop where
  final : send.finOff = some send.off
  tail : send.offFront = send.off ∨ send.TailUnread

theorem Valid.offFront_le (valid : Valid stream send) : send.offFront ≤ send.off := by
  obtain ⟨front, rest, split, _⟩ := valid.split_exists
  obtain ⟨_, _, _, _, queue⟩ := split.contiguous
  rw [split.offFront_eq]
  exact frontOf_le queue

theorem Valid.offFront_lt (valid : Valid stream send) (tail : send.TailUnread) : send.offFront < send.off := by
  have within := valid.offFront_le
  by_contra reached
  exact valid.not_unread (by omega) _ tail

variable {fin : Bool}

theorem Finishing.emit {out : List UInt8} (finishing : send.Finishing)
    (emitted : Emitted stream send outLen out fin next) : fin = true ∨ next.TailUnread := by
  have bound := emitted.end_le
  by_cases reaches : send.offFront + out.length = send.off
  · left
    rw [emitted.fin_iff, reaches]
    exact finishing.final
  · right
    rcases finishing.tail with reached | tail
    · omega
    · rw [TailUnread, emitted.off, emitted.unread]
      exact ⟨tail, by omega⟩

theorem Finishing.ack (finishing : send.Finishing) (valid : Valid stream send)
    (acknowledged : Acknowledged send off len next) : next.Finishing := by
  refine ⟨by rw [acknowledged.finOff, acknowledged.off_eq]; exact finishing.final, ?_⟩
  rcases finishing.tail with reached | tail
  · left
    exact offFront_eq_off fun place waits => valid.not_unread reached place (acknowledged.only place waits)
  · by_cases done : send.off ≤ next.ackOff
    · exact .inl (offFront_eq_off (acknowledged.done done))
    · right
      rw [TailUnread, acknowledged.off_eq]
      exact acknowledged.unread _ tail (by omega)

/-- With this range everything is acknowledged. -/
def Completes (send : SendBuf) (off len : Nat) : Prop := insertRange off (off + len) send.acked.iter = [(0, send.off)]

instance (send : SendBuf) (off len : Nat) : Decidable (send.Completes off len) := inferInstanceAs (Decidable (_ = _))

theorem Acknowledged.incomplete (acknowledged : Acknowledged send off len next) (valid : Valid stream next)
    (missing : ¬ send.Completes off len) : next.isComplete = false := by
  apply Bool.eq_false_iff.mpr
  intro complete
  apply missing
  rw [isComplete] at complete
  split at complete
  · rename_i finOff known
    rw [Completes, ← acknowledged.iter, RangeSet.eqRange_iter complete, valid.finOff_eq finOff known,
      acknowledged.off_eq]
  · cases complete

/-- The last byte waits already, or is in the range, and not all was acknowledged. -/
def Restores (send : SendBuf) (off len : Nat) : Prop :=
  send.TailUnread ∨ 0 < len ∧ off + len = send.off ∧ send.ackOff < send.off

instance (send : SendBuf) (off len : Nat) : Decidable (send.Restores off len) :=
  inferInstanceAs (Decidable (_ ∨ _ ∧ _ ∧ _))

theorem Restores.tail (restores : send.Restores off len) (requeued : Requeued send off len next) : next.TailUnread := by
  rw [TailUnread, requeued.off_eq]
  rcases restores with tail | ⟨positive, reaches, open_⟩
  · exact requeued.unread _ tail
  · exact requeued.lost _ (by omega) (by omega) (by omega) (by omega)

/-- Nothing waits, and nothing in the range has to be sent again. -/
def Resting (send : SendBuf) (off len : Nat) : Prop := send.offFront = send.off ∧ (len = 0 ∨ off + len ≤ send.ackOff)

instance (send : SendBuf) (off len : Nat) : Decidable (send.Resting off len) :=
  inferInstanceAs (Decidable (_ ∧ (_ ∨ _)))

theorem Resting.reached (resting : send.Resting off len) (valid : Valid stream send)
    (requeued : Requeued send off len next) : next.offFront = next.off := by
  obtain ⟨reached, nothing⟩ := resting
  apply offFront_eq_off
  intro place waits
  rcases nothing with empty | below
  · rcases requeued.only place waits with before | ⟨lower, upper⟩
    · exact valid.not_unread reached place before
    · omega
  · rw [requeued.idle below] at waits
    exact valid.not_unread reached place waits

theorem Finishing.filled (finishing : send.Finishing) (filled : Filled send next) : next.Finishing := by
  obtain ⟨off, final, data⟩ := filled.final finishing.final
  obtain ⟨_, _, _, _, frame⟩ := filled.frame
  have front : next.offFront = send.offFront := by
    rw [offFront, offFront, data, off, frame]
  refine ⟨final.trans (congrArg some off.symm), ?_⟩
  rw [front, off, TailUnread, data, off]
  exact finishing.tail

theorem Appended.tail {bytes : List UInt8} (appended : Appended send len fin bytes next)
    (nonempty : bytes ≠ []) : next.TailUnread := by
  have positive : 0 < bytes.length := List.length_pos_of_ne_nil nonempty
  rw [TailUnread, appended.unread, appended.off]
  exact .inr ⟨by omega, by omega⟩

section

variable (appended : Appended send len fin [] next)

include appended

theorem Appended.unread_nil (place : Nat) :
    Unread next.data place ↔ Unread send.data place := by
  rw [appended.unread, or_iff_left]
  exact fun inside => absurd inside.2 (Nat.not_lt.mpr inside.1)

theorem Appended.tail_nil (tail : send.TailUnread) : next.TailUnread := by
  rw [TailUnread, appended.unread_nil, appended.off]
  exact tail

theorem Appended.reached_nil (valid : Valid stream send)
    (reached : send.offFront = send.off) : next.offFront = next.off :=
  offFront_eq_off fun place waits => valid.not_unread reached place ((appended.unread_nil place).mp waits)

end

end SendBuf

namespace Stream

open SendBuf

variable {bytes : List UInt8} {stream : Stream}

theorem isFlushable_of_tail (valid : Valid bytes stream.send) (tail : stream.send.TailUnread) :
    stream.isFlushable = true := by
  have front := valid.offFront_lt tail
  have limit := valid.off_le
  have data : stream.send.isEmpty = false := by
    obtain ⟨buf, member, _⟩ := tail
    rw [isEmpty, List.isEmpty_eq_false_iff]
    exact List.ne_nil_of_mem member
  rw [isFlushable, data, Bool.not_false, Bool.true_and, Bool.and_eq_true]
  exact ⟨decide_eq_true front, decide_eq_true (Nat.lt_of_lt_of_le front limit)⟩

/-- Emitting with the given room reaches the FIN, and the stream stays flushable until then. -/
def Ends : List Nat → Stream → Prop
  | [], _ => False
  | room :: rooms, stream => ∃ send out fin, stream.send.emit room = some (send, out, fin) ∧
      (fin = true ∨ { stream with send : Stream }.isFlushable = true ∧ Ends rooms { stream with send })

theorem ends_of_finishing (valid : Valid bytes stream.send) (finishing : stream.send.Finishing)
    {rooms : List Nat} (nonempty : ∀ room ∈ rooms, 0 < room)
    (enough : unreadLen stream.send.data < rooms.length) : Ends rooms stream := by
  induction rooms generalizing stream with
  | nil => exact absurd enough (Nat.not_lt_zero _)
  | cons room rooms ih =>
    obtain ⟨positive, others⟩ := List.forall_mem_cons.mp nonempty
    obtain ⟨send, out, fin, written, nextValid, emitted⟩ := emit_spec valid room
    refine ⟨send, out, fin, written, ?_⟩
    rcases finishing.emit emitted with isFin | tail
    · exact .inl isFin
    by_cases isFin : fin = true
    · exact .inl isFin
    right
    refine ⟨isFlushable_of_tail nextValid tail, ih nextValid ⟨?_, .inr tail⟩ others ?_⟩
    · dsimp only
      rw [emitted.finOff, emitted.off]
      exact finishing.final
    · have taken : out ≠ [] := by
        rintro rfl
        rcases emitted.progress rfl with full | reached
        · omega
        · apply isFin
          rw [emitted.fin_iff, reached]
          exact finishing.final
      have size := emitted.unreadLen_eq
      have counted := List.length_pos_of_ne_nil taken
      rw [List.length_cons] at enough
      dsimp only
      omega

end Stream

end Quiche
