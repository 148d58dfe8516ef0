import Mathlib.Data.List.Basic
import Quiche.Error

namespace Quiche

/-- A window onto a byte buffer at an offset of a stream.

The window is `data[start .. start + viewLen]` and its first byte lies at stream
offset `viewOff` (the source's fields `len` and `off`). Everything before `pos`
has been consumed. The last four fields are the facts the source's unchecked
subtractions and slices rely on. -/
structure RangeBuf where
  data : List UInt8
  start : Nat
  pos : Nat
  viewLen : Nat
  viewOff : Nat
  fin : Bool
  start_le_pos : start ≤ pos
  pos_le : pos ≤ start + viewLen
  view_le : start + viewLen ≤ data.length
  start_le_viewOff : start ≤ viewOff
deriving DecidableEq

namespace RangeBuf

/-- `RangeBuf::from`: the whole of `bytes`, nothing consumed. -/
def fromBytes (bytes : List UInt8) (off : Nat) (fin : Bool) : RangeBuf where
  data := bytes
  start := 0
  pos := 0
  viewLen := bytes.length
  viewOff := off
  fin := fin
  start_le_pos := Nat.le_refl 0
  pos_le := Nat.zero_le _
  view_le := by omega
  start_le_viewOff := Nat.zero_le off

def off (buf : RangeBuf) : Nat := (buf.viewOff - buf.start) + buf.pos

def len (buf : RangeBuf) : Nat := buf.viewLen - (buf.pos - buf.start)

def maxOff (buf : RangeBuf) : Nat := buf.off + buf.len

def isEmpty (buf : RangeBuf) : Bool := buf.len == 0

/-- The bytes that were not consumed (`Deref`). -/
def bytes (buf : RangeBuf) : List UInt8 := (buf.data.take (buf.start + buf.viewLen)).drop buf.pos

def view (buf : RangeBuf) : List UInt8 := (buf.data.take (buf.start + buf.viewLen)).drop buf.start

theorem min_len_le (buf : RangeBuf) (room : Nat) : min buf.len room ≤ buf.len := Nat.min_le_left _ _

/-- Advances the read position. Both callers clamp `count` to `len`; past it the
source's `len()` would underflow. -/
def consume (buf : RangeBuf) (count : Nat) (bound : count ≤ buf.len) : RangeBuf where
  data := buf.data
  start := buf.start
  pos := buf.pos + count
  viewLen := buf.viewLen
  viewOff := buf.viewOff
  fin := buf.fin
  start_le_pos := by have := buf.start_le_pos; omega
  pos_le := by
    have := buf.start_le_pos
    have := buf.pos_le
    simp only [len] at bound
    omega
  view_le := buf.view_le
  start_le_viewOff := buf.start_le_viewOff

/-- Moves the read position back to `pos`, or leaves it where it is when it is
already lower. -/
def rewind (buf : RangeBuf) (pos : Nat) (bound : buf.start ≤ pos) : RangeBuf where
  data := buf.data
  start := buf.start
  pos := min buf.pos pos
  viewLen := buf.viewLen
  viewOff := buf.viewOff
  fin := buf.fin
  start_le_pos := Nat.le_min.mpr ⟨buf.start_le_pos, bound⟩
  pos_le := Nat.le_trans (Nat.min_le_left _ _) buf.pos_le
  view_le := buf.view_le
  start_le_viewOff := buf.start_le_viewOff

/-- Splits the window after its first `index` bytes; `none` is the assertion
failure for an index past the end. -/
def splitOff (buf : RangeBuf) (index : Nat) : Option (RangeBuf × RangeBuf) :=
  if bound : index ≤ buf.viewLen then
    some (
      { data := buf.data
        start := buf.start
        pos := min buf.pos (buf.start + index)
        viewLen := index
        viewOff := buf.viewOff
        fin := false
        start_le_pos := Nat.le_min.mpr ⟨buf.start_le_pos, Nat.le_add_right _ _⟩
        pos_le := Nat.min_le_right _ _
        view_le := by have := buf.view_le; omega
        start_le_viewOff := buf.start_le_viewOff },
      { data := buf.data
        start := buf.start + index
        pos := max buf.pos (buf.start + index)
        viewLen := buf.viewLen - index
        viewOff := buf.viewOff + index
        fin := buf.fin
        start_le_pos := Nat.le_max_right _ _
        pos_le := by have := buf.pos_le; omega
        view_le := by have := buf.view_le; omega
        start_le_viewOff := by have := buf.start_le_viewOff; omega })
  else none

section Shape

variable {buf : RangeBuf}

theorem maxOff_eq_view (buf : RangeBuf) : buf.maxOff = buf.viewOff + buf.viewLen := by
  have := buf.start_le_pos
  have := buf.pos_le
  have := buf.start_le_viewOff
  simp only [maxOff, off, len]
  omega

theorem viewOff_le_off (buf : RangeBuf) : buf.viewOff ≤ buf.off := by
  have := buf.start_le_pos
  have := buf.start_le_viewOff
  simp only [off]
  omega

theorem off_le_maxOff (buf : RangeBuf) : buf.off ≤ buf.maxOff := Nat.le_add_right _ _

@[simp] theorem bytes_length (buf : RangeBuf) : buf.bytes.length = buf.len := by
  have := buf.start_le_pos
  have := buf.pos_le
  have := buf.view_le
  simp only [bytes, len, List.length_drop, List.length_take]
  omega

theorem bytes_eq_view (buf : RangeBuf) : buf.bytes = buf.view.drop (buf.off - buf.viewOff) := by
  have := buf.start_le_pos
  have := buf.start_le_viewOff
  simp only [bytes, view, List.drop_drop, off]
  congr 1
  omega

theorem isEmpty_iff : buf.isEmpty = true ↔ buf.off = buf.maxOff := by
  simp only [isEmpty, maxOff, beq_iff_eq]
  omega

theorem isEmpty_iff_len : buf.isEmpty = true ↔ buf.len = 0 := by
  simp [isEmpty]

@[simp] theorem fromBytes_off (bytes : List UInt8) (off : Nat) (fin : Bool) :
    (fromBytes bytes off fin).off = off := rfl

@[simp] theorem fromBytes_len (bytes : List UInt8) (off : Nat) (fin : Bool) :
    (fromBytes bytes off fin).len = bytes.length := rfl

@[simp] theorem fromBytes_maxOff (bytes : List UInt8) (off : Nat) (fin : Bool) :
    (fromBytes bytes off fin).maxOff = off + bytes.length := rfl

@[simp] theorem fromBytes_fin (bytes : List UInt8) (off : Nat) (fin : Bool) :
    (fromBytes bytes off fin).fin = fin := rfl

@[simp] theorem fromBytes_isEmpty (bytes : List UInt8) (off : Nat) (fin : Bool) :
    (fromBytes bytes off fin).isEmpty = (bytes.length == 0) := rfl

@[simp] theorem fromBytes_bytes (bytes : List UInt8) (off : Nat) (fin : Bool) :
    (fromBytes bytes off fin).bytes = bytes := by
  simp [RangeBuf.bytes, fromBytes]

@[simp] theorem fromBytes_view (bytes : List UInt8) (off : Nat) (fin : Bool) :
    (fromBytes bytes off fin).view = bytes := by
  simp [RangeBuf.view, fromBytes]

end Shape

section Bytes

variable {buf : RangeBuf} {index : Nat}

/-- The offset lies in the part that was not consumed. -/
def Covers (buf : RangeBuf) (index : Nat) : Prop := buf.off ≤ index ∧ index < buf.maxOff

instance : Decidable (buf.Covers index) := inferInstanceAs (Decidable (_ ∧ _))

def byteAt (buf : RangeBuf) (index : Nat) : Option UInt8 :=
  if buf.off ≤ index then buf.bytes[index - buf.off]? else none

theorem byteAt_eq_view (lower : buf.off ≤ index) : buf.byteAt index = buf.view[index - buf.viewOff]? := by
  have := buf.viewOff_le_off
  rw [byteAt, if_pos lower, bytes_eq_view, List.getElem?_drop]
  congr 1
  omega

theorem byteAt_isSome_iff : (buf.byteAt index).isSome ↔ buf.Covers index := by
  unfold byteAt Covers
  split
  · rename_i lower
    simp only [← Option.ne_none_iff_isSome, ne_eq, List.getElem?_eq_none_iff, bytes_length, maxOff, lower, true_and]
    omega
  · rename_i outside
    simp [outside]

theorem byteAt_eq_none_iff : buf.byteAt index = none ↔ ¬ buf.Covers index := by
  rw [← byteAt_isSome_iff]
  cases buf.byteAt index <;> simp

theorem Covers.byteAt_exists (covers : buf.Covers index) : ∃ byte, buf.byteAt index = some byte :=
  Option.isSome_iff_exists.mp (byteAt_isSome_iff.mpr covers)

theorem covers_of_byteAt {byte : UInt8} (found : buf.byteAt index = some byte) : buf.Covers index :=
  byteAt_isSome_iff.mp (by simp [found])

end Bytes

section Split

variable {buf left right : RangeBuf} {index : Nat}

/-- What splitting a window at `index` yields. -/
structure Split (buf : RangeBuf) (index : Nat) (left right : RangeBuf) : Prop where
  left_viewOff : left.viewOff = buf.viewOff
  left_viewLen : left.viewLen = index
  left_view : left.view = buf.view.take index
  left_off : left.off = min buf.off (buf.viewOff + index)
  right_viewOff : right.viewOff = buf.viewOff + index
  right_viewLen : right.viewLen = buf.viewLen - index
  right_view : right.view = buf.view.drop index
  right_off : right.off = max buf.off (buf.viewOff + index)

theorem splitOff_exists (bound : index ≤ buf.viewLen) :
    ∃ left right, buf.splitOff index = some (left, right) ∧ buf.Split index left right := by
  have startPos := buf.start_le_pos
  have startOff := buf.start_le_viewOff
  refine ⟨_, _, dif_pos bound, rfl, rfl, ?_, ?_, rfl, rfl, ?_, ?_⟩
  · simp only [view, List.take_drop, List.take_take]
    congr 2
    omega
  · simp only [off]
    omega
  · simp only [view, List.drop_drop]
    congr 2
    omega
  · simp only [off]
    omega

theorem Split.left_maxOff (split : buf.Split index left right) : left.maxOff = buf.viewOff + index := by
  rw [maxOff_eq_view, split.left_viewOff, split.left_viewLen]

theorem Split.right_maxOff (split : buf.Split index left right) (bound : index ≤ buf.viewLen) :
    right.maxOff = buf.maxOff := by
  rw [maxOff_eq_view, maxOff_eq_view, split.right_viewOff, split.right_viewLen]
  omega

theorem splitOff_maxOff (splitted : buf.splitOff index = some (left, right)) :
    left.maxOff ≤ buf.maxOff ∧ right.maxOff = buf.maxOff := by
  by_cases bound : index ≤ buf.viewLen
  · obtain ⟨front, back, made, split⟩ := splitOff_exists bound
    cases made.symm.trans splitted
    refine ⟨?_, split.right_maxOff bound⟩
    rw [split.left_maxOff, maxOff_eq_view]
    omega
  · rw [splitOff, dif_neg bound] at splitted
    contradiction

theorem Split.left_byteAt (split : buf.Split index left right) {place : Nat}
    (covers : left.Covers place) : left.byteAt place = buf.byteAt place := by
  obtain ⟨lower, upper⟩ := covers
  rw [split.left_maxOff] at upper
  have offset := split.left_off
  have := buf.viewOff_le_off
  rw [byteAt_eq_view lower, byteAt_eq_view (by omega), split.left_view, split.left_viewOff,
    List.getElem?_take_of_lt (by omega)]

theorem Split.right_byteAt (split : buf.Split index left right) {place : Nat}
    (covers : right.Covers place) : right.byteAt place = buf.byteAt place := by
  have offset := split.right_off
  have lower := covers.1
  rw [byteAt_eq_view lower, byteAt_eq_view (by omega), split.right_view, split.right_viewOff, List.getElem?_drop]
  congr 1
  omega

end Split

section Consume

variable (buf : RangeBuf) (count : Nat) (bound : count ≤ buf.len)

@[simp] theorem consume_off : (buf.consume count bound).off = buf.off + count := by
  simp only [off, consume]
  omega

@[simp] theorem consume_maxOff : (buf.consume count bound).maxOff = buf.maxOff := by
  simp only [maxOff_eq_view, consume]

@[simp] theorem consume_viewOff : (buf.consume count bound).viewOff = buf.viewOff := rfl

@[simp] theorem consume_viewLen : (buf.consume count bound).viewLen = buf.viewLen := rfl

@[simp] theorem consume_view : (buf.consume count bound).view = buf.view := rfl

@[simp] theorem consume_bytes : (buf.consume count bound).bytes = buf.bytes.drop count := by
  simp only [bytes, consume, List.drop_drop]

end Consume

end RangeBuf

end Quiche
