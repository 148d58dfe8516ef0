import Mathlib.Data.Nat.Log
import Quiche.Octets.Wire

namespace Quiche.Packet

open Data Octets

def leadingZeros (value : Nat) : Nat := if value = 0 then 64 else 63 - Nat.log2 value

/-- The bytes that `pn` is sent with; `none` is the overflow of the `u64` addition. -/
def pktNumLen (pn largestAcked : Nat) : Option Nat := do
  let numUnacked ← addU64 (pn - largestAcked) 1
  let minBits := 64 - leadingZeros numUnacked
  pure ((minBits + 7) / 8)

def encodePktNum (pn pnLen : Nat) : Action Unit :=
  match pnLen with
  | 1 => putU8 pn
  | 2 => putU16 pn
  | 3 => putU24 pn
  | 4 => putU32 pn
  | _ => throw (.error .invalidPacket)

/-- The part of `decrypt_hdr` that takes the truncated number off the packet. -/
def getPktNum (pnLen : Nat) : Action Nat :=
  match pnLen with
  | 1 => getU8
  | 2 => getU16
  | 3 => getU24
  | 4 => getU32
  | _ => throw (.error .invalidPacket)

/-- `value & !mask` on `u64`. -/
def andNot (value mask : Nat) : Nat := (BitVec.ofNat 64 value &&& ~~~ BitVec.ofNat 64 mask).toNat

/-- Places a truncated number next to the largest one received; `none` is an
arithmetic overflow. The shift bounds the window by `2 ^ 56`, so that the
subtraction from `1 << 62` has none. -/
def decodePktNum (largestPn truncatedPn pnLen : Nat) : Option Nat := do
  let pnNbits := pnLen * 8
  let expectedPn ← addU64 largestPn 1
  let pnWin ← if pnNbits < 64 then some (2 ^ pnNbits) else none
  let pnHwin := pnWin / 2
  let pnMask := pnWin - 1
  let candidatePn := andNot expectedPn pnMask ||| truncatedPn
  let candidateTop ← addU64 candidatePn pnHwin
  if candidateTop ≤ expectedPn ∧ candidatePn < 2 ^ 62 - pnWin then addU64 candidatePn pnWin
  else
    let expectedTop ← addU64 expectedPn pnHwin
    if candidatePn > expectedTop ∧ candidatePn ≥ pnWin then some (candidatePn - pnWin)
    else some candidatePn

/-- What a receiver makes of `pn` when it was encoded at the front of `out`. -/
def transmit (pn pnLen largestRx : Nat) (out : Octets) : Option Nat :=
  match encodePktNum pn pnLen out with
  | .error _ _ => none
  | .ok _ sent =>
    match getPktNum pnLen (withSlice (sent.buf.drop out.off)) with
    | .error _ _ => none
    | .ok truncatedPn _ => decodePktNum largestRx truncatedPn pnLen

/-- The least power of 256 above `distance`. -/
def window (distance : Nat) : Nat := 256 ^ (Nat.log 256 distance + 1)

variable {pn pnLen largestAcked largestRx : Nat}

theorem pktNumLen_eq (bound : pn < 2 ^ 62) :
    pktNumLen pn largestAcked = some (Nat.log 256 (pn - largestAcked + 1) + 1) := by
  have positive : pn - largestAcked + 1 ≠ 0 := Nat.succ_ne_zero _
  have fits : pn - largestAcked + 1 < 2 ^ 64 := by omega
  have short : Nat.log2 (pn - largestAcked + 1) < 64 := (Nat.log2_lt positive).mpr fits
  have bytes : Nat.log 256 (pn - largestAcked + 1) = Nat.log2 (pn - largestAcked + 1) / 8 := by
    rw [show 256 = 2 ^ 8 by rfl, Nat.log_pow_left, Nat.log2_eq_log_two]
  rw [pktNumLen, addU64_of_lt fits, bytes]
  simp only [Option.bind_eq_bind, Option.bind_some, leadingZeros, if_neg positive, Option.pure_def,
    Option.some.injEq]
  omega

theorem andNot_mask (value bits : Nat) (bound : value < 2 ^ 64) (short : bits ≤ 64) :
    andNot value (2 ^ bits - 1) = 2 ^ bits * (value / 2 ^ bits) := by
  have low : 2 ^ bits - 1 < 2 ^ 64 := Nat.lt_of_lt_of_le (Nat.sub_lt (Nat.two_pow_pos bits) Nat.one_pos)
      (Nat.pow_le_pow_right (by decide) short)
  apply Nat.eq_of_testBit_eq
  intro place
  simp only [andNot, BitVec.toNat_and, BitVec.toNat_not, BitVec.toNat_ofNat, Nat.mod_eq_of_lt bound,
    Nat.mod_eq_of_lt low, Nat.testBit_and, Nat.testBit_two_pow_mul, Nat.testBit_div_two_pow]
  rw [Nat.sub_sub, Nat.add_comm 1, Nat.testBit_two_pow_sub_succ low, Nat.testBit_two_pow_sub_one]
  cases Nat.lt_or_ge place bits with
  | inl inside => simp [inside]
  | inr outside =>
    have reach : value.testBit place = true → place < 64 := by
      intro set
      by_contra far
      have small : value < 2 ^ place := Nat.lt_of_lt_of_le bound (Nat.pow_le_pow_right (by decide) (Nat.not_lt.mp far))
      rw [Nat.testBit_lt_two_pow small] at set
      contradiction
    cases bit : value.testBit place with
    | false => simp [bit, outside]
    | true => simp [bit, outside, reach bit]

theorem candidate_eq {bits truncatedPn : Nat} {expectedPn : Nat} (bound : expectedPn < 2 ^ 64)
    (short : bits ≤ 64) (truncated : truncatedPn < 2 ^ bits) :
    andNot expectedPn (2 ^ bits - 1) ||| truncatedPn = 2 ^ bits * (expectedPn / 2 ^ bits) + truncatedPn := by
  rw [andNot_mask expectedPn bits bound short, Nat.two_pow_add_eq_or_of_lt truncated]

theorem transmit_eq {out : Octets} (lower : 1 ≤ pnLen) (upper : pnLen ≤ 4) (room : pnLen ≤ out.cap) :
    transmit pn pnLen largestRx out = decodePktNum largestRx (pn % 256 ^ pnLen) pnLen := by
  have writes : Writes tape (encodePktNum pn pnLen) (bigEndian pnLen pn) () := by
    obtain rfl | rfl | rfl | rfl : pnLen = 1 ∨ pnLen = 2 ∨ pnLen = 3 ∨ pnLen = 4 := by omega
    all_goals exact writes_putU _ pn
  have reads : Reads cursor (getPktNum pnLen) (bigEndian pnLen pn) (pn % 256 ^ pnLen) := by
    obtain rfl | rfl | rfl | rfl : pnLen = 1 ∨ pnLen = 2 ∨ pnLen = 3 ∨ pnLen = 4 := by omega
    all_goals exact reads_getU _ pn
  have fits : (bigEndian pnLen pn).length ≤ out.cap := by rwa [bigEndian_length]
  have sent := writes out fits
  have packet : ((out.append (bigEndian pnLen pn)).buf.drop out.off) =
      bigEndian pnLen pn ++ out.buf.drop (out.off + pnLen) := by
    rw [append_buf fits, List.append_assoc, bigEndian_length]
    conv_lhs => rw [← out.written_length, List.drop_left]
    rw [out.written_length]
  have received := reads (withSlice ((out.append (bigEndian pnLen pn)).buf.drop out.off))
    (out.buf.drop (out.off + pnLen)) packet
  simp only [transmit, sent]
  change (match getPktNum pnLen (withSlice ((out.append (bigEndian pnLen pn)).buf.drop out.off)) with
    | .error _ _ => none
    | .ok truncatedPn _ => decodePktNum largestRx truncatedPn pnLen) = _
  rw [received]

theorem decodePktNum_eq {truncatedPn : Nat} (lower : 1 ≤ pnLen) (upper : pnLen ≤ 4)
    (bound : largestRx < 2 ^ 62) (truncated : truncatedPn < 256 ^ pnLen) :
    decodePktNum largestRx truncatedPn pnLen = let pnWin := 256 ^ pnLen
      let candidatePn := pnWin * ((largestRx + 1) / pnWin) + truncatedPn
      if candidatePn + pnWin / 2 ≤ largestRx + 1 ∧ candidatePn < 2 ^ 62 - pnWin then
        some (candidatePn + pnWin)
      else if candidatePn > largestRx + 1 + pnWin / 2 ∧ candidatePn ≥ pnWin then
        some (candidatePn - pnWin)
      else some candidatePn := by
  have power : 2 ^ (pnLen * 8) = 256 ^ pnLen := by
    rw [Nat.mul_comm, Nat.pow_mul]
  have short : pnLen * 8 < 64 := by omega
  have expected : largestRx + 1 < 2 ^ 64 := by omega
  have candidate := candidate_eq expected (Nat.le_of_lt short) (power ▸ truncated)
  rw [power] at candidate
  have win : 256 ^ pnLen ≤ 2 ^ 32 := by
    rw [show 2 ^ 32 = 256 ^ 4 by rfl]
    exact Nat.pow_le_pow_right (by decide) upper
  have below := Nat.mul_div_le (largestRx + 1) (256 ^ pnLen)
  simp only [decodePktNum, addU64_of_lt expected, if_pos short, Option.bind_eq_bind, Option.bind_some,
    power, candidate]
  generalize place : 256 ^ pnLen * ((largestRx + 1) / 256 ^ pnLen) + truncatedPn = candidatePn
  have near : candidatePn < 2 ^ 63 := by omega
  generalize 256 ^ pnLen = pnWin at win near
  rw [addU64_of_lt (show candidatePn + pnWin / 2 < 2 ^ 64 by omega),
    addU64_of_lt (show largestRx + 1 + pnWin / 2 < 2 ^ 64 by omega),
    addU64_of_lt (show candidatePn + pnWin < 2 ^ 64 by omega)]
  rfl

/-- The number survives exactly when it lies in the half window that the decoder
looks ahead, or in the first window of all. -/
theorem transmit_eq_iff {out : Octets} (bound : pn < 2 ^ 62) (acked : largestAcked ≤ largestRx)
    (ahead : largestRx < pn) (len : pktNumLen pn largestAcked = some pnLen) (short : pnLen ≤ 4)
    (room : pnLen ≤ out.cap) :
    transmit pn pnLen largestRx out = some pn ↔ pn ≤ largestRx + 1 + window (pn - largestAcked + 1) / 2 ∨
        pn < window (pn - largestAcked + 1) := by
  rw [pktNumLen_eq bound, Option.some.injEq] at len
  have size : window (pn - largestAcked + 1) = 256 ^ pnLen := by rw [window, len]
  have within : pn - largestAcked + 1 < 256 ^ pnLen := by
    rw [← len]
    exact Nat.lt_pow_succ_log_self (by decide) _
  have unseen : pn - largestRx ≤ pn - largestAcked := Nat.sub_le_sub_left acked pn
  rw [transmit_eq (by omega) short room, size,
    decodePktNum_eq (by omega) short (by omega) (Nat.mod_lt _ (Nat.pow_pos (by decide)))]
  obtain rfl | rfl | rfl | rfl : pnLen = 1 ∨ pnLen = 2 ∨ pnLen = 3 ∨ pnLen = 4 := by omega
  all_goals
    simp only [Nat.reducePow] at within ⊢
    split
    · rw [Option.some.injEq]
      omega
    · split
      · rw [Option.some.injEq]
        omega
      · rw [Option.some.injEq]
        omega

theorem transmit_next : transmit 1001 1 1000 (withSlice [0]) = some 1001 ↔
      1001 ≤ 1000 + 1 + window (1001 - 1000 + 1) / 2 ∨ 1001 < window (1001 - 1000 + 1) :=
  transmit_eq_iff (by decide) (by decide) (by decide) (by decide : pktNumLen 1001 1000 = some 1)
    (by decide) (by decide)

/-- The 200th packet in flight is sent with one byte, which the receiver of packet
1000 takes for an earlier one. -/
theorem transmit_lost : 1200 < 2 ^ 62 ∧ 1000 ≤ 1000 ∧ 1000 < 1200 ∧ pktNumLen 1200 1000 = some 1 ∧
      transmit 1200 1 1000 (withSlice [0]) = some 944 := by
  decide

end Quiche.Packet
