import Mathlib.Order.Monotone.Basic
import Mathlib.Tactic.Ring

namespace Quiche

/-- What a build does with arithmetic that overflows. -/
inductive OverflowChecks where
  | panics
  | wraps
deriving DecidableEq

/-- `*` on `u64` -/
def OverflowChecks.mulU64 (checks : OverflowChecks) (left right : UInt64) : Option UInt64 :=
  if checks = .panics ∧ 2 ^ 64 ≤ left.toNat * right.toNat then none else some (left * right)

def numNanosPerSecond : UInt64 := 1000000000

structure Bandwidth where
  bitsPerSecond : UInt64
deriving DecidableEq

namespace Bandwidth

def infinite : Bandwidth := ⟨UInt64.ofNat (2 ^ 64 - 1)⟩

def zero : Bandwidth := ⟨0⟩

/-- A `Duration` is its number of nanoseconds, and `as u64` takes the low bits of it. -/
def fromBytesAndTimeDelta (checks : OverflowChecks) (bytes : UInt64) (timeDelta : Nat) : Option Bandwidth :=
  if bytes = 0 then some ⟨0⟩
  else
    let nanos := UInt64.ofNat timeDelta
    let nanos := if nanos = 0 then 1 else nanos
    do
      let numNanoBits ← checks.mulU64 (← checks.mulU64 8 bytes) numNanosPerSecond
      if numNanoBits < nanos then return ⟨1⟩
      else return ⟨numNanoBits / nanos⟩

def transferTime (checks : OverflowChecks) (bandwidth : Bandwidth) (bytes : UInt64) : Option Nat :=
  if bandwidth.bitsPerSecond = 0 then some 0
  else do
    let numNanoBits ← checks.mulU64 (← checks.mulU64 bytes 8) numNanosPerSecond
    return (numNanoBits / bandwidth.bitsPerSecond).toNat

def toBytesPerPeriod (checks : OverflowChecks) (bandwidth : Bandwidth) (timePeriod : Nat) : Option UInt64 := do
  let nanoBits ← checks.mulU64 bandwidth.bitsPerSecond (UInt64.ofNat timePeriod)
  return nanoBits / 8 / numNanosPerSecond

end Bandwidth

section Products

variable {checks : OverflowChecks} {left right product : UInt64}

theorem OverflowChecks.mulU64_of_lt (checks : OverflowChecks) (fits : left.toNat * right.toNat < 2 ^ 64) :
    ∃ product, checks.mulU64 left right = some product ∧ product.toNat = left.toNat * right.toNat := by
  refine ⟨left * right, if_neg fun both => ?_, ?_⟩
  · exact absurd both.2 (Nat.not_le.mpr fits)
  · rw [UInt64.toNat_mul, Nat.mod_eq_of_lt fits]

theorem OverflowChecks.mulU64_toNat (returned : checks.mulU64 left right = some product) :
    product.toNat = left.toNat * right.toNat % 2 ^ 64 := by
  rw [mulU64] at returned
  split at returned
  · cases returned
  · cases returned
    exact UInt64.toNat_mul left right

end Products

namespace Bandwidth

def nanoBits (bytes : Nat) : Nat := 8 * bytes * 10 ^ 9

def saturating (value : Nat) : Nat := min value (2 ^ 64 - 1)

def exactRate (bytes timeDelta : Nat) : Nat :=
  if bytes = 0 then 0 else saturating (max 1 (nanoBits bytes / max 1 timeDelta))

def exactTransferTime (bitsPerSecond bytes : Nat) : Nat := saturating (nanoBits bytes / bitsPerSecond)

def exactBytes (bitsPerSecond timePeriod : Nat) : Nat := saturating (bitsPerSecond * timePeriod / (8 * 10 ^ 9))

theorem saturating_of_lt {value : Nat} (fits : value < 2 ^ 64) : saturating value = value := Nat.min_eq_left (by omega)

theorem wrapped_lt {product divisor : Nat} (positive : 0 < divisor) (small : divisor ≤ 2 ^ 64)
    (exceeds : 2 ^ 64 ≤ product)
    (below : product % 2 ^ 64 / divisor < 2 ^ 64 - 1) : product % 2 ^ 64 / divisor < saturating (product / divisor) := by
  have rest : product % 2 ^ 64 + divisor ≤ product := by omega
  have more : product % 2 ^ 64 / divisor + 1 ≤ product / divisor := by
    calc product % 2 ^ 64 / divisor + 1 = (product % 2 ^ 64 + divisor) / divisor := (Nat.add_div_right _ positive).symm
      _ ≤ product / divisor := Nat.div_le_div_right rest
  exact lt_min more below

theorem wrapped_nanoBits_lt (bytes divisor : Nat) : nanoBits bytes % 2 ^ 64 / divisor < 2 ^ 64 - 1 := by
  have even : nanoBits bytes % 2 ^ 64 < 2 ^ 64 - 1 := by
    rw [nanoBits]
    omega
  exact Nat.lt_of_le_of_lt (Nat.div_le_self _ _) even

section Exact

variable {checks : OverflowChecks} {bytes : UInt64} {timeDelta timePeriod : Nat}

theorem ofNat_nanos (hour : timeDelta < 3600 * 10 ^ 9) : (UInt64.ofNat timeDelta).toNat = timeDelta := by
  rw [UInt64.toNat_ofNat', Nat.mod_eq_of_lt (by omega)]

theorem nanoBits_cases (checks : OverflowChecks) {bits : UInt64} (eightfold : bits.toNat = 8 * bytes.toNat) :
    (nanoBits bytes.toNat < 2 ^ 64 ∧
        ∃ product, checks.mulU64 bits numNanosPerSecond = some product ∧ product.toNat = nanoBits bytes.toNat) ∨
      2 ^ 64 ≤ nanoBits bytes.toNat ∧ ∀ product, checks.mulU64 bits numNanosPerSecond = some product →
          product.toNat = nanoBits bytes.toNat % 2 ^ 64 := by
  have same : bits.toNat * numNanosPerSecond.toNat = nanoBits bytes.toNat := by
    rw [eightfold]
    rfl
  by_cases fits : nanoBits bytes.toNat < 2 ^ 64
  · obtain ⟨product, returned, value⟩ := checks.mulU64_of_lt (same ▸ fits)
    exact .inl ⟨fits, product, returned, value.trans same⟩
  · exact .inr ⟨Nat.not_lt.mp fits, fun product returned => same ▸ OverflowChecks.mulU64_toNat returned⟩

theorem eightfold_exists (checks : OverflowChecks) (few : bytes.toNat < 2 ^ 48) :
    (∃ bits, checks.mulU64 bytes 8 = some bits ∧ bits.toNat = 8 * bytes.toNat) ∧
      ∃ bits, checks.mulU64 8 bytes = some bits ∧ bits.toNat = 8 * bytes.toNat := by
  constructor
  · obtain ⟨bits, returned, value⟩ := checks.mulU64_of_lt (show bytes.toNat * (8 : UInt64).toNat < 2 ^ 64 by
      show bytes.toNat * 8 < 2 ^ 64
      omega)
    exact ⟨bits, returned, value.trans (Nat.mul_comm _ _)⟩
  · exact checks.mulU64_of_lt (show (8 : UInt64).toNat * bytes.toNat < 2 ^ 64 by
      show 8 * bytes.toNat < 2 ^ 64
      omega)

theorem transferTime_exact_iff (few : bytes.toNat < 2 ^ 48) (bandwidth : Bandwidth) :
    transferTime checks bandwidth bytes = some (exactTransferTime bandwidth.bitsPerSecond.toNat bytes.toNat) ↔
      bandwidth = zero ∨ nanoBits bytes.toNat < 2 ^ 64 := by
  obtain ⟨bitsPerSecond⟩ := bandwidth
  rw [transferTime, exactTransferTime]
  by_cases still : bitsPerSecond = 0
  · subst still
    simp [zero, saturating]
  · have nonzero : (⟨bitsPerSecond⟩ : Bandwidth) ≠ zero := fun same => still (congrArg Bandwidth.bitsPerSecond same)
    have positive : 0 < bitsPerSecond.toNat := UInt64.pos_iff_ne_zero.mpr still
    have word := bitsPerSecond.toNat_lt
    obtain ⟨⟨bits, returned, eightfold⟩, _⟩ := eightfold_exists checks few
    simp only [if_neg still, nonzero, false_or, returned, Option.bind_eq_bind, Option.bind_some]
    rcases nanoBits_cases checks eightfold with ⟨fits, product, returned, value⟩ | ⟨exceeds, wraps⟩
    · refine iff_of_true ?_ fits
      have quotient := Nat.lt_of_le_of_lt (Nat.div_le_self (nanoBits bytes.toNat) bitsPerSecond.toNat) fits
      simp only [returned, Option.bind_some, Option.pure_def, UInt64.toNat_div, value, saturating_of_lt quotient]
    · refine iff_of_false (fun exactly => ?_) (Nat.not_lt.mpr exceeds)
      obtain ⟨product, returned, same⟩ := Option.bind_eq_some_iff.mp exactly
      have less := wrapped_lt positive (Nat.le_of_lt word) exceeds (wrapped_nanoBits_lt _ _)
      rw [← wraps product returned, ← UInt64.toNat_div, Option.some.inj same] at less
      exact Nat.lt_irrefl _ less

theorem fromBytesAndTimeDelta_exact_iff (few : bytes.toNat < 2 ^ 48) (hour : timeDelta < 3600 * 10 ^ 9) :
    (fromBytesAndTimeDelta checks bytes timeDelta).map (·.bitsPerSecond.toNat) =
        some (exactRate bytes.toNat timeDelta) ↔ nanoBits bytes.toNat < 2 ^ 64 := by
  rw [fromBytesAndTimeDelta, exactRate]
  by_cases noBytes : bytes = 0
  · subst noBytes
    simp [nanoBits]
  · have positive : bytes.toNat ≠ 0 := fun same => noBytes (UInt64.toNat_inj.mp same)
    obtain ⟨nanos, is⟩ : ∃ nanos : UInt64, nanos = if UInt64.ofNat timeDelta = 0 then 1 else UInt64.ofNat timeDelta :=
      ⟨_, rfl⟩
    have atLeast : nanos.toNat = max 1 timeDelta := by
      have exactly := ofNat_nanos hour
      rw [is]
      split
      · rename_i empty
        rw [empty] at exactly
        have absent : (0 : UInt64).toNat = 0 := rfl
        have one : (1 : UInt64).toNat = 1 := rfl
        omega
      · rename_i someBytes
        have above : (UInt64.ofNat timeDelta).toNat ≠ 0 := fun same => someBytes (UInt64.toNat_inj.mp same)
        omega
    obtain ⟨_, bits, returned, eightfold⟩ := eightfold_exists checks few
    have word : nanos.toNat < 2 ^ 63 := by omega
    simp only [if_neg noBytes, if_neg positive, ← is, ← atLeast, returned, Option.bind_eq_bind, Option.bind_some]
    rcases nanoBits_cases checks eightfold with ⟨fits, product, returned, value⟩ | ⟨exceeds, wraps⟩
    · refine iff_of_true ?_ fits
      simp only [returned, Option.bind_some, UInt64.lt_iff_toNat_lt, value]
      by_cases slow : nanoBits bytes.toNat < nanos.toNat
      · rw [if_pos slow, Nat.div_eq_of_lt slow]
        rfl
      · have quotient := Nat.lt_of_le_of_lt (Nat.div_le_self (nanoBits bytes.toNat) nanos.toNat) fits
        have atLeastOne : 1 ≤ nanoBits bytes.toNat / nanos.toNat := Nat.div_pos (Nat.not_lt.mp slow) (by omega)
        rw [if_neg slow, Nat.max_eq_right atLeastOne, saturating_of_lt quotient, Option.pure_def, Option.map_some,
          UInt64.toNat_div, value]
    · refine iff_of_false (fun exactly => ?_) (fun fits => absurd fits (Nat.not_lt.mpr exceeds))
      obtain ⟨bandwidth, returned, same⟩ := Option.map_eq_some_iff.mp exactly
      obtain ⟨product, multiplied, rest⟩ := Option.bind_eq_some_iff.mp returned
      have less := wrapped_lt (show 0 < nanos.toNat by omega) (by omega) exceeds (wrapped_nanoBits_lt _ _)
      have several : 2 ≤ nanoBits bytes.toNat / nanos.toNat := by
        apply (Nat.le_div_iff_mul_le (by omega)).mpr
        omega
      rw [Nat.max_eq_right (by omega)] at same
      split at rest
      · cases rest
        have capped : 2 ≤ saturating (nanoBits bytes.toNat / nanos.toNat) := le_min several (by decide)
        have slowest : 1 = saturating (nanoBits bytes.toNat / nanos.toNat) := same
        omega
      · cases rest
        rw [← wraps product multiplied, ← UInt64.toNat_div, ← same] at less
        exact Nat.lt_irrefl _ less

theorem toBytesPerPeriod_exact_iff (hour : timePeriod < 3600 * 10 ^ 9) (bandwidth : Bandwidth) :
    (toBytesPerPeriod checks bandwidth timePeriod).map (·.toNat) =
        some (exactBytes bandwidth.bitsPerSecond.toNat timePeriod) ↔
      bandwidth.bitsPerSecond.toNat * timePeriod < 2 ^ 64 := by
  obtain ⟨bitsPerSecond⟩ := bandwidth
  have nanos := ofNat_nanos hour
  rw [toBytesPerPeriod, exactBytes]
  by_cases fits : bitsPerSecond.toNat * timePeriod < 2 ^ 64
  · refine iff_of_true ?_ fits
    obtain ⟨product, returned, value⟩ := checks.mulU64_of_lt (nanos.symm ▸ fits)
    have quotient := Nat.lt_of_le_of_lt (Nat.div_le_self (bitsPerSecond.toNat * timePeriod) (8 * 10 ^ 9)) fits
    rw [saturating_of_lt quotient, ← Nat.div_div_eq_div_mul]
    simp only [returned, Option.bind_eq_bind, Option.bind_some, Option.pure_def, Option.map_some, UInt64.toNat_div, value,
      nanos]
    rfl
  · refine iff_of_false (fun exactly => ?_) fits
    obtain ⟨total, returned, same⟩ := Option.map_eq_some_iff.mp exactly
    obtain ⟨product, multiplied, rest⟩ := Option.bind_eq_some_iff.mp returned
    cases rest
    have wraps := OverflowChecks.mulU64_toNat multiplied
    rw [nanos] at wraps
    have below : bitsPerSecond.toNat * timePeriod % 2 ^ 64 / (8 * 10 ^ 9) < 2 ^ 64 - 1 := by omega
    have less := wrapped_lt (by decide) (by decide) (Nat.not_lt.mp fits) below
    rw [← wraps, ← same, UInt64.toNat_div, UInt64.toNat_div, Nat.div_div_eq_div_mul] at less
    exact Nat.lt_irrefl _ less

theorem saturating_mono : Monotone saturating := fun _ _ le => min_le_min_right _ le

theorem nanoBits_mono : Monotone nanoBits := fun _ _ le => Nat.mul_le_mul_right _ (Nat.mul_le_mul_left 8 le)

variable {fewer more longer shorter faster slower : Nat}

theorem exactRate_mono (bytes : fewer ≤ more) (time : shorter ≤ longer) :
    exactRate fewer longer ≤ exactRate more shorter := by
  rw [exactRate, exactRate]
  by_cases noBytes : fewer = 0
  · rw [if_pos noBytes]
    exact Nat.zero_le _
  · rw [if_neg noBytes, if_neg (by omega)]
    refine saturating_mono (max_le_max_left 1 ?_)
    exact Nat.div_le_div (nanoBits_mono bytes) (max_le_max_left 1 time) (by omega)

theorem exactTransferTime_mono (bytes : fewer ≤ more) (positive : 0 < slower)
    (rate : slower ≤ faster) : exactTransferTime faster fewer ≤ exactTransferTime slower more :=
  saturating_mono (Nat.div_le_div (nanoBits_mono bytes) rate (Nat.ne_of_gt positive))

theorem exactBytes_mono (rate : slower ≤ faster) (time : shorter ≤ longer) :
    exactBytes slower shorter ≤ exactBytes faster longer :=
  saturating_mono (Nat.div_le_div_right (Nat.mul_le_mul rate time))

/-- The functions are exact exactly where the products in them stay below `2 ^ 64`, whether arithmetic that
overflows panics or wraps around, and exact results are monotone. -/
theorem bandwidth_exact (checks : OverflowChecks) (bytes : UInt64) (few : bytes.toNat < 2 ^ 48) (duration : Nat)
    (hour : duration < 3600 * 10 ^ 9) (bandwidth : Bandwidth) :
    ((fromBytesAndTimeDelta checks bytes duration).map (·.bitsPerSecond.toNat) =
        some (exactRate bytes.toNat duration) ↔ nanoBits bytes.toNat < 2 ^ 64) ∧
      (transferTime checks bandwidth bytes = some (exactTransferTime bandwidth.bitsPerSecond.toNat bytes.toNat) ↔
        bandwidth = zero ∨ nanoBits bytes.toNat < 2 ^ 64) ∧
      ((toBytesPerPeriod checks bandwidth duration).map (·.toNat) =
          some (exactBytes bandwidth.bitsPerSecond.toNat duration) ↔
        bandwidth.bitsPerSecond.toNat * duration < 2 ^ 64) ∧
      (∀ more less, bytes.toNat ≤ more → less ≤ duration → exactRate bytes.toNat duration ≤ exactRate more less) ∧
      (∀ more slower, bytes.toNat ≤ more → 0 < slower → slower ≤ bandwidth.bitsPerSecond.toNat →
        exactTransferTime bandwidth.bitsPerSecond.toNat bytes.toNat ≤ exactTransferTime slower more) ∧
      ∀ faster longer, bandwidth.bitsPerSecond.toNat ≤ faster → duration ≤ longer →
        exactBytes bandwidth.bitsPerSecond.toNat duration ≤ exactBytes faster longer :=
  ⟨fromBytesAndTimeDelta_exact_iff few hour, transferTime_exact_iff few bandwidth,
    toBytesPerPeriod_exact_iff hour bandwidth,
    fun _ _ => exactRate_mono, fun _ _ => exactTransferTime_mono, fun _ _ => exactBytes_mono⟩

theorem bandwidth_exact_second :
    (fromBytesAndTimeDelta .wraps 10 (10 ^ 9)).map (·.bitsPerSecond.toNat) = some (exactRate 10 (10 ^ 9)) :=
  (bandwidth_exact .wraps 10 (by decide) (10 ^ 9) (by decide) zero).1.mpr (by decide)

def tenGigabits : Bandwidth := ⟨10000000000⟩

/-- The product wraps around to less than a tenth of them, or it panics. -/
theorem long_period_wraps :
    exactBytes tenGigabits.bitsPerSecond.toNat (2 * 10 ^ 9) = 2500000000 ∧
      (toBytesPerPeriod .wraps tenGigabits (2 * 10 ^ 9)).map (·.toNat) = some 194156990 ∧
      (toBytesPerPeriod .panics tenGigabits (2 * 10 ^ 9)).isNone := by
  decide +kernel

end Exact

end Bandwidth

end Quiche
