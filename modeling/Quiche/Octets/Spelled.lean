import Quiche.Octets.Wire

namespace Quiche.Octets

open Data

variable {value len tag : Nat} {bytes tail : List UInt8} {octets after : Octets}

/-- The bytes are a varint of the value, of any of the four widths. -/
def Spells (bytes : List UInt8) (value : Nat) : Prop :=
  ∃ len tag, VarintWidth len tag ∧ FitsVarint value len ∧ bytes = varintBytes value len tag

theorem VarintWidth.pos (kind : VarintWidth len tag) : 0 < len := by
  cases kind <;> decide

theorem spells_varint (bound : value < 2 ^ 62) : Spells (varint value) value := by
  obtain ⟨len, tag, _, spelled, kind, fits⟩ := varint_exists bound
  exact ⟨len, tag, kind, fits, spelled⟩

section

variable (spelled : Spells bytes value)

include spelled

theorem Spells.lt : value < 2 ^ 62 := by
  obtain ⟨len, tag, kind, fits, _⟩ := spelled
  cases kind <;> simp only [FitsVarint] at fits <;> omega

theorem Spells.length_pos : 0 < bytes.length := by
  obtain ⟨len, tag, kind, _, rfl⟩ := spelled
  rw [varintBytes_length]
  exact kind.pos

theorem Spells.varintLen_exists :
    ∃ least, varintLen value = some least ∧ least ≤ bytes.length ∧ least = (varint value).length := by
  obtain ⟨least, _, width, minimal, leastKind, _⟩ := varint_exists spelled.lt
  refine ⟨least, width, ?_, by rw [minimal, varintBytes_length]⟩
  obtain ⟨len, tag, kind, fits, rfl⟩ := spelled
  rw [varintBytes_length]
  simp only [varintLen] at width
  cases kind <;> simp only [FitsVarint] at fits <;> grind

theorem Spells.eq_varint (least : bytes.length = (varint value).length) :
    bytes = varint value := by
  obtain ⟨_, _, _, minimal, leastKind, _⟩ := varint_exists spelled.lt
  obtain ⟨len, tag, kind, _, rfl⟩ := spelled
  rw [minimal, varintBytes_length, varintBytes_length] at least
  subst least
  rw [minimal]
  cases kind <;> cases leastKind <;> rfl

theorem reads_spelled : Reads cursor getVarint bytes value := by
  obtain ⟨len, tag, kind, fits, rfl⟩ := spelled
  exact reads_getVarint kind fits

end

theorem bigEndian_ofBigEndian (bytes : List UInt8) : bigEndian bytes.length (ofBigEndian bytes) = bytes := by
  induction bytes with
  | nil => rfl
  | cons byte rest ih =>
    have low := ofBigEndian_lt rest
    have positive : 0 < 256 ^ rest.length := Nat.pow_pos (by decide)
    have head : (byte.toNat * 256 ^ rest.length + ofBigEndian rest) / 256 ^ rest.length = byte.toNat := by
      rw [Nat.mul_comm, Nat.mul_add_div positive, Nat.div_eq_of_lt low, Nat.add_zero]
    rw [List.length_cons, bigEndian, ofBigEndian, head, bigEndian_add_mul, ih, UInt8.ofNat_toNat]

theorem varintParseLen_width {first : Nat} (byte : first < 256) :
    ∃ tag, VarintWidth (varintParseLen first) tag ∧ first / 64 = tag := by
  refine ⟨first / 64, ?_, rfl⟩
  have few : first / 64 < 4 := by omega
  rw [varintParseLen, Nat.shiftRight_eq_div_pow]
  generalize first / 64 = top at few
  have digits : top = 0 ∨ top = 1 ∨ top = 2 ∨ top = 3 := by omega
  rcases digits with rfl | rfl | rfl | rfl
  · exact .one
  · exact .two
  · exact .four
  · exact .eight

theorem spells_of_length {first : UInt8} {rest : List UInt8}
    (length : (first :: rest).length = varintParseLen first.toNat) : ∃ value, Spells (first :: rest) value := by
  obtain ⟨tag, kind, top⟩ := varintParseLen_width first.toNat_lt
  rw [← length] at kind
  have low := ofBigEndian_lt rest
  have whole : ofBigEndian (first :: rest) =
      tag * 64 * 256 ^ rest.length + (first.toNat % 64 * 256 ^ rest.length + ofBigEndian rest) := by
    have split : first.toNat = tag * 64 + first.toNat % 64 := by omega
    rw [ofBigEndian]
    calc first.toNat * 256 ^ rest.length + ofBigEndian rest
        = (tag * 64 + first.toNat % 64) * 256 ^ rest.length + ofBigEndian rest := by rw [← split]
      _ = _ := by ring
  have fits : first.toNat % 64 * 256 ^ rest.length + ofBigEndian rest < 64 * 256 ^ rest.length := by
    have step : first.toNat % 64 + 1 ≤ 64 := by omega
    have block := Nat.mul_le_mul_right (256 ^ rest.length) step
    rw [Nat.add_mul, Nat.one_mul] at block
    omega
  refine ⟨_, _, tag, kind, fits, ?_⟩
  rw [varintBytes, List.length_cons, Nat.add_sub_cancel, ← whole]
  exact (bigEndian_ofBigEndian (first :: rest)).symm

theorem getVarint_cases (octets : Octets) : getVarint octets = .error (.error .bufferTooShort) octets ∨
      ∃ bytes tail value, octets.rest = bytes ++ tail ∧ Spells bytes value := by
  cases split : octets.rest with
  | nil =>
    have empty : octets.cap < 1 := by rw [← rest_length, split]; decide
    have short : peekU8 octets = .error (.error .bufferTooShort) octets := congrFun (if_pos empty) octets
    exact .inl (bind_error short _)
  | cons first others =>
    have peeked : peekU8 octets = .ok first.toNat octets := by
      have single : octets.rest = [first] ++ others := split
      have peek := peekU_rest single rfl
      simp only [ofBigEndian, List.length_nil, Nat.pow_zero, Nat.mul_one, Nat.add_zero] at peek
      exact peek
    by_cases short : varintParseLen first.toNat > octets.cap
    · left
      rw [getVarint, bind_ok peeked]
      exact congrFun (if_pos short) octets
    · right
      obtain ⟨_, kind, _⟩ := varintParseLen_width first.toNat_lt
      have size : octets.cap = others.length + 1 := by rw [← rest_length, split, List.length_cons]
      have length : (first :: others.take (varintParseLen first.toNat - 1)).length = varintParseLen first.toNat := by
        have positive := kind.pos
        rw [List.length_cons, List.length_take]
        omega
      obtain ⟨value, spelled⟩ := spells_of_length length
      refine ⟨_, others.drop (varintParseLen first.toNat - 1), value, ?_, spelled⟩
      rw [List.cons_append, List.take_append_drop]

end Quiche.Octets
