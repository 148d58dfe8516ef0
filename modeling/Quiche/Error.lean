import Mathlib.Algebra.GroupWithZero.Nat

namespace Quiche

inductive Error where
  | done
  | bufferTooShort
  | unknownVersion
  | invalidFrame
  | invalidPacket
  | invalidState
  | invalidStreamState (streamId : Nat)
  | invalidTransportParam
  | cryptoFail
  | tlsFail
  | flowControl
  | streamLimit
  | streamStopped (errorCode : Nat)
  | streamReset (errorCode : Nat)
  | finalSize
  | congestionControl
  | idLimit
  | outOfIdentifiers
  | keyUpdate
  | cryptoBufferExceeded
  | invalidAckRange
  | optimisticAckDetected
deriving DecidableEq, Repr

/-- Addition of two `u64` values; `none` is the overflow panic. -/
def addU64 (left right : Nat) : Option Nat :=
  if left + right < 2 ^ 64 then some (left + right) else none

variable {left right : Nat}

theorem addU64_of_lt (bound : left + right < 2 ^ 64) : addU64 left right = some (left + right) := if_pos bound

theorem addU64_spec {total : Nat} (sum : addU64 left right = some total) : total = left + right := by
  rw [addU64] at sum
  split at sum
  · exact (Option.some.inj sum).symm
  · contradiction

/-- Subtraction of two unsigned values; `none` is the underflow panic. -/
def subChecked (left right : Nat) : Option Nat :=
  if right ≤ left then some (left - right) else none

theorem subChecked_of_le (bound : right ≤ left) : subChecked left right = some (left - right) := if_pos bound

theorem subChecked_spec {rest : Nat} (difference : subChecked left right = some rest) :
    right ≤ left ∧ rest = left - right := by
  rw [subChecked] at difference
  split at difference
  · rename_i bound
    exact ⟨bound, (Option.some.inj difference).symm⟩
  · contradiction

end Quiche
