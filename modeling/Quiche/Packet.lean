import Mathlib.Data.Nat.Basic
import Quiche.Error

namespace Quiche

def maxCidLen : Nat := 20

inductive PacketType where
  | initial
  | retry
  | handshake
  | zeroRTT
  | versionNegotiation
  | short
deriving DecidableEq, Repr

/-- The packet numbers received, from `lower` on as the bits of `window`, the largest one in the
lowest bit. -/
structure PktNumWindow where
  lower : Nat
  window : BitVec 128
deriving DecidableEq

namespace PktNumWindow

/-- `Default` -/
def default : PktNumWindow := ⟨0, 0⟩

/-- The addition saturates at `u64::MAX`. -/
def upper (self : PktNumWindow) : Nat := min (self.lower + 128) (2 ^ 64 - 1) - 1

/-- `checked_shl(diff as u32).unwrap_or(0)` -/
def shifted (window : BitVec 128) (diff : Nat) : BitVec 128 :=
  if diff % 2 ^ 32 < 128 then window <<< (diff % 2 ^ 32) else 0

def insert (seq : Nat) (self : PktNumWindow) : PktNumWindow :=
  if seq < self.lower then self
  else
    let self :=
      if seq > self.upper then
        let diff := seq - self.upper
        { lower := self.lower + diff, window := shifted self.window diff }
      else self
    let mask := 1#128 <<< (self.upper - seq)
    { self with window := self.window ||| mask }

def contains (seq : Nat) (self : PktNumWindow) : Bool :=
  if seq > self.upper then false
  else if seq < self.lower then true
  else
    let mask := 1#128 <<< (self.upper - seq)
    self.window &&& mask != 0

variable {self : PktNumWindow} {seq other : Nat}

theorem and_mask {window : BitVec 128} {place : Nat} (inside : place < 128) :
    (window &&& 1#128 <<< place != 0) = window.getLsbD place := by
  rw [← BitVec.twoPow_eq, BitVec.and_twoPow]
  cases set : window.getLsbD place with
  | true =>
    rw [if_pos rfl, bne_iff_ne]
    intro zero
    have bit := congrArg (fun bits => bits.getLsbD place) zero
    simp [inside] at bit
  | false => simp

section

variable (bounded : self.lower < 2 ^ 62)

include bounded

theorem upper_eq : self.upper = self.lower + 127 := by
  rw [upper]
  omega

theorem contains_iff : self.contains seq = true ↔
      seq < self.lower ∨ seq ≤ self.upper ∧ self.window.getLsbD (self.upper - seq) = true := by
  have top := upper_eq bounded
  rw [contains]
  by_cases ahead : seq > self.upper
  · rw [if_pos ahead]
    constructor
    · exact fun impossible => absurd impossible Bool.false_ne_true
    · intro either
      omega
  · rw [if_neg ahead]
    by_cases behind : seq < self.lower
    · rw [if_pos behind]
      exact iff_of_true rfl (.inl behind)
    · have inside : self.upper - seq < 128 := by omega
      rw [if_neg behind]
      simp only [and_mask inside]
      constructor
      · exact fun bit => .inr ⟨Nat.not_lt.mp ahead, bit⟩
      · exact fun either => (either.resolve_left behind).2

theorem contains_moved (small : seq < 2 ^ 62) (ahead : seq > self.upper)
    (seen : self.contains other = true) :
    contains other ⟨self.lower + (seq - self.upper), shifted self.window (seq - self.upper)⟩ = true := by
  have top := upper_eq bounded
  let moved : PktNumWindow := ⟨self.lower + (seq - self.upper), shifted self.window (seq - self.upper)⟩
  have lower : moved.lower = self.lower + (seq - self.upper) := rfl
  have within : moved.lower < 2 ^ 62 := by omega
  have movedTop : moved.upper = moved.lower + 127 := upper_eq within
  show moved.contains other = true
  rw [contains_iff within]
  rcases (contains_iff bounded).mp seen with behind | ⟨inside, bit⟩
  · exact .inl (by omega)
  · by_cases left : other < moved.lower
    · exact .inl left
    · have near : seq - self.upper < 128 := by omega
      have same : (seq - self.upper) % 2 ^ 32 = seq - self.upper := Nat.mod_eq_of_lt (by omega)
      have place : moved.upper - other = self.upper - other + (seq - self.upper) := by omega
      refine .inr ⟨by omega, ?_⟩
      show (shifted self.window (seq - self.upper)).getLsbD (moved.upper - other) = true
      rw [shifted, same, if_pos near, place, BitVec.getLsbD_shiftLeft, Nat.add_sub_cancel, bit]
      have fits : self.upper - other + (seq - self.upper) < 128 := by omega
      simp [fits]

theorem insert_lower (small : seq < 2 ^ 62) : (self.insert seq).lower < 2 ^ 62 := by
  have top := upper_eq bounded
  simp only [insert]
  split
  · exact bounded
  · split
    · show self.lower + (seq - self.upper) < 2 ^ 62
      omega
    · exact bounded

theorem contains_masked (lower : self.lower ≤ seq) (upper : seq ≤ self.upper) :
    contains other { self with window := self.window ||| 1#128 <<< (self.upper - seq) } = true ↔
      self.contains other = true ∨ other = seq := by
  have top := upper_eq bounded
  let marked : PktNumWindow := { self with window := self.window ||| 1#128 <<< (self.upper - seq) }
  have within : marked.lower < 2 ^ 62 := bounded
  show marked.contains other = true ↔ _
  rw [contains_iff bounded, contains_iff within]
  show other < self.lower ∨ other ≤ self.upper ∧
    (self.window ||| 1#128 <<< (self.upper - seq)).getLsbD (self.upper - other) = true ↔ _
  rw [BitVec.getLsbD_or, ← BitVec.twoPow_eq, BitVec.getLsbD_twoPow]
  simp only [Bool.or_eq_true, Bool.and_eq_true, decide_eq_true_eq]
  constructor
  · rintro (behind | ⟨below, bit | ⟨_, place⟩⟩)
    · exact .inl (.inl behind)
    · exact .inl (.inr ⟨below, bit⟩)
    · exact .inr (by omega)
  · rintro ((behind | ⟨below, bit⟩) | rfl)
    · exact .inl behind
    · exact .inr ⟨below, .inl bit⟩
    · exact .inr ⟨upper, .inr ⟨by omega, rfl⟩⟩

theorem contains_insert (small : seq < 2 ^ 62)
    (either : self.contains other = true ∨ other = seq) : (self.insert seq).contains other = true := by
  have top := upper_eq bounded
  simp only [insert]
  split
  · rename_i behind
    rcases either with seen | rfl
    · exact seen
    · exact (contains_iff bounded).mpr (.inl behind)
  · rename_i reached
    by_cases ahead : seq > self.upper
    · simp only [if_pos ahead]
      let moved : PktNumWindow := ⟨self.lower + (seq - self.upper), shifted self.window (seq - self.upper)⟩
      have lower : moved.lower = self.lower + (seq - self.upper) := rfl
      have within : moved.lower < 2 ^ 62 := by omega
      have movedTop : moved.upper = moved.lower + 127 := upper_eq within
      exact (contains_masked within (by omega) (by omega)).mpr
        (either.imp_left (contains_moved bounded small ahead))
    · simp only [if_neg ahead]
      exact (contains_masked bounded (Nat.not_lt.mp reached) (Nat.not_lt.mp ahead)).mpr either

end

end PktNumWindow

end Quiche
