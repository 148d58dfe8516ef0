import Quiche.Ranges.Insert
import Quiche.Stream.SendBuf

namespace Quiche.SendBuf

open Data

variable {data front rest : List RangeBuf} {first middle last : Nat} {buf : RangeBuf}
  {stream : List UInt8}

/-- Non-empty windows that follow each other without gaps, from `first` to `last`. -/
def Contiguous : Nat → List RangeBuf → Nat → Prop
  | first, [], last => first = last
  | first, buf :: rest, last =>
    buf.viewOff = first ∧ 0 < buf.viewLen ∧ Contiguous (buf.viewOff + buf.viewLen) rest last

/-- The buffer views its part of the stream. -/
def Shows (stream : List UInt8) (buf : RangeBuf) : Prop := buf.view = (stream.drop buf.viewOff).take buf.viewLen

/-- The offset waits in the queue to be sent. -/
def Unread (data : List RangeBuf) (place : Nat) : Prop := ∃ buf ∈ data, buf.Covers place

def unreadLen (data : List RangeBuf) : Nat := (data.map RangeBuf.len).sum

section Contiguous

theorem contiguous_append : Contiguous first (front ++ rest) last ↔
      ∃ middle, Contiguous first front middle ∧ Contiguous middle rest last := by
  induction front generalizing first with
  | nil => simp [Contiguous]
  | cons buf front ih =>
    simp only [List.cons_append, Contiguous, ih]
    constructor
    · intro both
      obtain ⟨start, size, middle, left, right⟩ := both
      exact ⟨middle, ⟨start, size, left⟩, right⟩
    · intro both
      obtain ⟨middle, ⟨start, size, left⟩, right⟩ := both
      exact ⟨start, size, middle, left, right⟩

section

variable (contiguous : Contiguous first data last)

include contiguous

theorem Contiguous.le : first ≤ last := by
  induction data generalizing first with
  | nil => exact Nat.le_of_eq contiguous
  | cons buf rest ih =>
    obtain ⟨start, size, following⟩ := contiguous
    have := ih following
    omega

theorem Contiguous.bounds :
    ∀ buf ∈ data, first ≤ buf.viewOff ∧ buf.maxOff ≤ last := by
  induction data generalizing first with
  | nil => simp
  | cons head rest ih =>
    obtain ⟨start, size, following⟩ := contiguous
    have order := following.le
    intro buf member
    cases List.mem_cons.mp member with
    | inl same =>
      subst same
      rw [RangeBuf.maxOff_eq_view]
      exact ⟨Nat.le_of_eq start.symm, order⟩
    | inr member =>
      obtain ⟨lower, upper⟩ := ih following buf member
      exact ⟨by omega, upper⟩

theorem Contiguous.nonempty : ∀ buf ∈ data, 0 < buf.viewLen := by
  induction data generalizing first with
  | nil => simp
  | cons head rest ih =>
    obtain ⟨start, size, following⟩ := contiguous
    exact List.forall_mem_cons.mpr ⟨size, ih following⟩

end

end Contiguous

section Unread

variable {place : Nat}

theorem Contiguous.le_of_unread (contiguous : Contiguous first data last)
    (waits : Unread data place) : first ≤ place := by
  obtain ⟨buf, member, covers⟩ := waits
  exact Nat.le_trans (contiguous.bounds buf member).1
    (Nat.le_trans buf.viewOff_le_off covers.1)

@[simp] theorem unread_nil (place : Nat) : ¬ Unread [] place := by simp [Unread]

@[simp] theorem unread_cons : Unread (buf :: rest) place ↔ buf.Covers place ∨ Unread rest place := by
  simp [Unread]

@[simp] theorem unread_append : Unread (front ++ rest) place ↔ Unread front place ∨ Unread rest place := by
  simp [Unread, or_and_right, exists_or]

@[simp] theorem unreadLen_nil : unreadLen [] = 0 := rfl

@[simp] theorem unreadLen_cons : unreadLen (buf :: rest) = buf.len + unreadLen rest := by
  simp [unreadLen]

@[simp] theorem unreadLen_append : unreadLen (front ++ rest) = unreadLen front + unreadLen rest := by
  simp [unreadLen]

theorem not_covers_of_isEmpty (empty : buf.isEmpty = true) : ¬ buf.Covers place := by
  intro bounds
  obtain ⟨lower, upper⟩ := bounds
  rw [RangeBuf.isEmpty_iff] at empty
  omega

theorem not_unread_of_isEmpty (empty : ∀ buf ∈ data, buf.isEmpty = true) : ¬ Unread data place := by
  intro holder
  obtain ⟨buf, member, covers⟩ := holder
  exact not_covers_of_isEmpty (empty buf member) covers

theorem unreadLen_of_isEmpty (empty : ∀ buf ∈ data, buf.isEmpty = true) : unreadLen data = 0 := by
  induction data with
  | nil => rfl
  | cons buf rest ih =>
    obtain ⟨emptyBuf, emptyRest⟩ := List.forall_mem_cons.mp empty
    rw [unreadLen_cons, ih emptyRest, RangeBuf.isEmpty_iff_len.mp emptyBuf]

end Unread

theorem Shows.bytes (showing : Shows stream buf) : buf.bytes = (stream.drop buf.off).take buf.len := by
  have lower := buf.viewOff_le_off
  have upper := buf.off_le_maxOff
  have end_ := buf.maxOff_eq_view
  rw [RangeBuf.bytes_eq_view, showing, List.drop_take, List.drop_drop]
  congr 1
  · simp only [RangeBuf.maxOff] at end_
    omega
  · congr 1
    omega

/-- What holds between any two calls, for the bytes accepted so far. -/
structure Valid (stream : List UInt8) (send : SendBuf) : Prop where
  contiguous : ∃ base ≤ send.ackOff, Contiguous base send.data send.off
  showing : ∀ buf ∈ send.data, Shows stream buf
  off_eq : send.off = stream.length
  pos_le : send.pos ≤ send.data.length
  consumed : ∀ buf ∈ send.data.take send.pos, buf.isEmpty = true
  off_le : send.off ≤ send.maxData
  small : send.maxData < 2 ^ 62
  unreadLen_le : unreadLen send.data ≤ send.len
  acked : send.acked.Bounded send.off
  running : send.error = none
  finOff_eq : ∀ final, send.finOff = some final → final = send.off

theorem new_valid {maxData : Nat} (small : maxData < 2 ^ 62) : Valid [] (new maxData) where
  contiguous := ⟨0, Nat.le_refl _, rfl⟩
  showing := by simp [new]
  off_eq := rfl
  pos_le := Nat.le_refl _
  consumed := by simp [new]
  off_le := Nat.zero_le _
  small := small
  unreadLen_le := Nat.le_refl _
  acked := RangeSet.default_bounded _
  running := rfl
  finOff_eq := by simp [new]

theorem Valid.updateMaxData {send : SendBuf} (valid : Valid stream send) {limit : Nat}
    (small : limit < 2 ^ 62) : Valid stream (send.updateMaxData limit) where
  contiguous := valid.contiguous
  showing := valid.showing
  off_eq := valid.off_eq
  pos_le := valid.pos_le
  consumed := valid.consumed
  off_le := Nat.le_trans valid.off_le (Nat.le_max_left _ _)
  small := Nat.max_lt.mpr ⟨valid.small, small⟩
  unreadLen_le := valid.unreadLen_le
  acked := valid.acked
  running := valid.running
  finOff_eq := valid.finOff_eq

end Quiche.SendBuf
