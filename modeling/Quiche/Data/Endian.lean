import Mathlib.Data.List.Basic
import Mathlib.Data.Nat.Basic
import Mathlib.Tactic.Ring

namespace Quiche.Data

/-- The low `width` bytes of a number, most significant byte first. -/
def bigEndian : Nat → Nat → List UInt8
  | 0, _ => []
  | width + 1, value => UInt8.ofNat (value / 256 ^ width) :: bigEndian width value

def ofBigEndian : List UInt8 → Nat
  | [] => 0
  | byte :: rest => byte.toNat * 256 ^ rest.length + ofBigEndian rest

variable {width value : Nat}

@[simp] theorem bigEndian_length (width value : Nat) : (bigEndian width value).length = width := by
  induction width with
  | zero => rfl
  | succ width ih => simp only [bigEndian, List.length_cons, ih]

theorem bigEndian_add_mul (width value high : Nat) :
    bigEndian width (high * 256 ^ width + value) = bigEndian width value := by
  induction width generalizing high with
  | zero => rfl
  | succ width ih =>
    have quotient : (high * 256 ^ (width + 1) + value) / 256 ^ width = high * 256 + value / 256 ^ width := by
      rw [Nat.pow_succ, show high * (256 ^ width * 256) + value = value + 256 ^ width * (high * 256) by
        ring, Nat.add_mul_div_left _ _ (Nat.pow_pos (by decide)), Nat.add_comm]
    have head : UInt8.ofNat (high * 256 + value / 256 ^ width) = UInt8.ofNat (value / 256 ^ width) := by
      apply UInt8.toNat.inj
      simp only [UInt8.toNat_ofNat', Nat.reducePow]
      omega
    have tail : bigEndian width (high * 256 ^ (width + 1) + value) = bigEndian width value := by
      rw [show high * 256 ^ (width + 1) = high * 256 * 256 ^ width by ring]
      exact ih (high * 256)
    simp only [bigEndian, quotient, head, tail]

theorem ofBigEndian_bigEndian (width value : Nat) : ofBigEndian (bigEndian width value) = value % 256 ^ width := by
  induction width with
  | zero => simp [bigEndian, ofBigEndian, Nat.mod_one]
  | succ width ih =>
    have digit : value % 256 ^ (width + 1) = value % 256 ^ width + 256 ^ width * (value / 256 ^ width % 256) := by
      rw [Nat.pow_succ, Nat.mod_mul]
    simp only [bigEndian, ofBigEndian, ih, bigEndian_length, UInt8.toNat_ofNat', digit]
    ring

theorem ofBigEndian_lt (bytes : List UInt8) : ofBigEndian bytes < 256 ^ bytes.length := by
  induction bytes with
  | nil => exact Nat.one_pos
  | cons byte rest ih =>
    have digit : byte.toNat + 1 ≤ 256 := byte.toNat_lt
    have block := Nat.mul_le_mul_right (256 ^ rest.length) digit
    rw [Nat.add_mul, Nat.one_mul] at block
    rw [ofBigEndian, List.length_cons, Nat.pow_succ']
    omega

theorem or_high_bits : ∀ first < 64, ∀ tag < 4,
    UInt8.ofNat first ||| UInt8.ofNat (tag * 64) = UInt8.ofNat (tag * 64 + first) := by
  decide

theorem bigEndian_tag {tag : Nat} (tagBound : tag < 4) (bound : value < 64 * 256 ^ width) :
    (UInt8.ofNat (value / 256 ^ width) ||| UInt8.ofNat (tag * 64)) :: bigEndian width value =
      bigEndian (width + 1) (tag * 64 * 256 ^ width + value) := by
  have small : value / 256 ^ width < 64 := Nat.div_lt_of_lt_mul (by rwa [Nat.mul_comm])
  have quotient : (tag * 64 * 256 ^ width + value) / 256 ^ width = tag * 64 + value / 256 ^ width := by
    rw [Nat.mul_comm, Nat.mul_add_div (Nat.pow_pos (by decide))]
  rw [bigEndian, quotient, or_high_bits _ small _ tagBound, bigEndian_add_mul]

def ofLittleEndian : List UInt8 → Nat
  | [] => 0
  | byte :: rest => byte.toNat + 256 * ofLittleEndian rest

theorem ofLittleEndian_lt (bytes : List UInt8) : ofLittleEndian bytes < 256 ^ bytes.length := by
  induction bytes with
  | nil => exact Nat.one_pos
  | cons byte rest ih =>
    have digit := byte.toNat_lt
    rw [ofLittleEndian, List.length_cons, Nat.pow_succ']
    omega

theorem ofLittleEndian_replicate (count : Nat) : ofLittleEndian (List.replicate count 0) = 0 := by
  induction count with
  | zero => rfl
  | succ count ih => simp [List.replicate_succ, ofLittleEndian, ih]

theorem ofLittleEndian_append_zeros (bytes : List UInt8) (count : Nat) :
    ofLittleEndian (bytes ++ List.replicate count 0) = ofLittleEndian bytes := by
  induction bytes with
  | nil => exact ofLittleEndian_replicate count
  | cons byte rest ih => rw [List.cons_append, ofLittleEndian, ih, ofLittleEndian]

theorem ofLittleEndian_inj {left right : List UInt8} (length : left.length = right.length)
    (same : ofLittleEndian left = ofLittleEndian right) : left = right := by
  induction left generalizing right with
  | nil => exact (List.length_eq_zero_iff.mp length.symm).symm
  | cons byte rest ih =>
    cases right with
    | nil => cases length
    | cons other others =>
      have leftDigit := byte.toNat_lt
      have rightDigit := other.toNat_lt
      simp only [ofLittleEndian] at same
      have digits : byte.toNat = other.toNat := by omega
      have tails : ofLittleEndian rest = ofLittleEndian others := by omega
      rw [UInt8.toNat_inj.mp digits, ih (Nat.succ.inj length) tails]

end Quiche.Data
