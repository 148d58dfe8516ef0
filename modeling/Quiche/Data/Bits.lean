import Mathlib.Data.Nat.Bitwise
import Quiche.Data.Endian

namespace Quiche.Data

/-- The low `width` bits of a number, most significant bit first. -/
def bitsOf : Nat → Nat → List Bool
  | 0, _ => []
  | width + 1, value => value.testBit width :: bitsOf width value

def bytesBits (bytes : List UInt8) : List Bool := bytes.flatMap fun byte => bitsOf 8 byte.toNat

variable {first second width value high low : Nat}

@[simp] theorem bitsOf_length (width value : Nat) : (bitsOf width value).length = width := by
  induction width with
  | zero => rfl
  | succ width ih => rw [bitsOf, List.length_cons, ih]

theorem bitsOf_mod (width value : Nat) : bitsOf width (value % 2 ^ width) = bitsOf width value := by
  have agree : ∀ count ≤ width, bitsOf count (value % 2 ^ width) = bitsOf count value := by
    intro count within
    induction count with
    | zero => rfl
    | succ count ih =>
      rw [bitsOf, bitsOf, ih (Nat.le_of_succ_le within), Nat.testBit_mod_two_pow,
        decide_eq_true (Nat.lt_of_succ_le within), Bool.true_and]
  exact agree width (Nat.le_refl width)

theorem bitsOf_add (first second value : Nat) :
    bitsOf (first + second) value = bitsOf first (value / 2 ^ second) ++ bitsOf second value := by
  induction first with
  | zero => rw [Nat.zero_add, bitsOf, List.nil_append]
  | succ first ih =>
    rw [Nat.add_right_comm, bitsOf, bitsOf, ih, Nat.testBit_div_two_pow, List.cons_append]

theorem bitsOf_append (bound : low < 2 ^ second) :
    bitsOf (first + second) (high * 2 ^ second + low) = bitsOf first high ++ bitsOf second low := by
  have quotient : (high * 2 ^ second + low) / 2 ^ second = high := by
    rw [Nat.mul_comm, Nat.mul_add_div (Nat.two_pow_pos second), Nat.div_eq_of_lt bound, Nat.add_zero]
  have rest : (high * 2 ^ second + low) % 2 ^ second = low := by
    rw [Nat.mul_comm, Nat.mul_add_mod, Nat.mod_eq_of_lt bound]
  rw [bitsOf_add, quotient, ← bitsOf_mod second (_ + _), rest]

theorem bitsOf_ones (width : Nat) : bitsOf width (2 ^ width - 1) = List.replicate width true := by
  have agree : ∀ count ≤ width, bitsOf count (2 ^ width - 1) = List.replicate count true := by
    intro count within
    induction count with
    | zero => rfl
    | succ count ih =>
      rw [bitsOf, ih (Nat.le_of_succ_le within), Nat.testBit_two_pow_sub_one,
        decide_eq_true (Nat.lt_of_succ_le within), List.replicate_succ]
  exact agree width (Nat.le_refl width)

theorem bytesBits_append (before after : List UInt8) :
    bytesBits (before ++ after) = bytesBits before ++ bytesBits after := List.flatMap_append

theorem bytesBits_length (bytes : List UInt8) : (bytesBits bytes).length = 8 * bytes.length := by
  induction bytes with
  | nil => rfl
  | cons byte rest ih =>
    rw [bytesBits, List.flatMap_cons, List.length_append, bitsOf_length, ← bytesBits, ih, List.length_cons]
    omega

theorem bytesBits_bigEndian (width value : Nat) : bytesBits (bigEndian width value) = bitsOf (8 * width) value := by
  induction width with
  | zero => rfl
  | succ width ih =>
    have head : (UInt8.ofNat (value / 256 ^ width)).toNat = value / 2 ^ (8 * width) % 2 ^ 8 := by
      rw [UInt8.toNat_ofNat', Nat.pow_mul]
    rw [bigEndian, bytesBits, List.flatMap_cons, ← bytesBits, ih, head, bitsOf_mod, ← bitsOf_add]
    congr 1
    omega

end Quiche.Data
