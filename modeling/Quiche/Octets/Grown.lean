import Quiche.Octets.Wire

namespace Quiche.Octets

open Data

variable {Value : Type} {octets middle after : Octets}

/-- The offset only moved forward, and the bytes before it are the same. -/
structure Grown (octets after : Octets) : Prop where
  off_le : octets.off ≤ after.off
  length : after.buf.length = octets.buf.length
  written : after.buf.take octets.off = octets.written

theorem Grown.refl (octets : Octets) : octets.Grown octets := ⟨Nat.le_refl _, rfl, rfl⟩

theorem Grown.trans (first : octets.Grown middle) (second : middle.Grown after) : octets.Grown after where
  off_le := Nat.le_trans first.off_le second.off_le
  length := second.length.trans first.length
  written := by
    have prefixed := congrArg (List.take octets.off) second.written
    rw [Octets.written, List.take_take, List.take_take, Nat.min_eq_left first.off_le] at prefixed
    exact prefixed.trans first.written

theorem Grown.slice (grown : octets.Grown after) {place size : Nat} (within : place + size ≤ octets.off) :
    (after.buf.drop place).take size = (octets.buf.drop place).take size := by
  have prefixed : ∀ buf : List UInt8, (buf.drop place).take size = ((buf.take octets.off).drop place).take size := by
    intro buf
    rw [List.drop_take, List.take_take, Nat.min_eq_left (by omega)]
  rw [prefixed after.buf, prefixed octets.buf, grown.written, Octets.written]

theorem append_grown (output : List UInt8) (octets : Octets) : octets.Grown (octets.append output) := by
  by_cases fits : output.length ≤ octets.cap
  · have size := octets.off_le
    have room : output.length ≤ octets.buf.length - octets.off := fits
    constructor
    · rw [append_off fits]
      exact Nat.le_add_right _ _
    · rw [append_buf fits]
      simp only [List.length_append, written_length, List.length_drop]
      omega
    · rw [append_buf fits, List.append_assoc]
      conv_lhs => rw [← octets.written_length]
      exact List.take_left
  · rw [append, dif_neg fits]
    exact .refl octets

theorem run_fills {put : Action Value} {size : Nat} {value result : Value} (fills : Fills put size value)
    (written : put octets = .ok result after) : octets.Grown after ∧ after.off = octets.off + size := by
  by_cases fits : size ≤ octets.cap
  · obtain ⟨output, rfl, same⟩ := fills.fits octets fits
    cases same.symm.trans written
    exact ⟨append_grown output octets, append_off fits⟩
  · obtain ⟨other, failed⟩ := fills.short octets (Nat.not_le.mp fits)
    cases failed.symm.trans written

section Forced

variable {value : Nat} {tail : List UInt8}

/-- What `put_varint_with_len` leaves of a value in two bytes: the value loses bits where it has more than 14. -/
def forced (value : Nat) : List UInt8 :=
  match bigEndian 2 value with
  | first :: rest => (first ||| 0x40) :: rest
  | [] => []

theorem forced_eq (value : Nat) :
    forced value = [UInt8.ofNat (value / 256 ^ 1) ||| 0x40, UInt8.ofNat (value / 256 ^ 0)] := rfl

theorem putVarintWithLen_two (fits : 2 ≤ octets.cap) :
    putVarintWithLen value 2 octets = .ok () (octets.append (forced value)) := by
  have masked : orByte octets.off 0x40 (octets.append (bigEndian 2 value)) = octets.append (forced value) :=
    orByte_first _ _ fits
  have written : putMasked (putU16 value) 0x40 octets = .ok () (octets.append (forced value)) := by
    have put : putU 2 value octets = .ok () (octets.append (bigEndian 2 value)) := putU_append fits
    rw [← masked]
    exact bind_ok put _
  exact (congrFun (if_neg (Nat.not_lt.mpr fits)) octets).trans written

theorem forced_small (small : value < 2 ^ 14) : forced value = varintBytes value 2 1 := by
  have tagged : (UInt8.ofNat (value / 256 ^ 1) ||| UInt8.ofNat (1 * 64)) :: bigEndian 1 value =
      bigEndian 2 (1 * 64 * 256 ^ 1 + value) := bigEndian_tag (by decide) small
  exact tagged

theorem varintParseLen_forced (first : UInt8) :
    varintParseLen (first ||| 0x40).toNat = 2 ∨ varintParseLen (first ||| 0x40).toNat = 8 := by
  have every : ∀ low < 256, varintParseLen (UInt8.ofNat low ||| 0x40).toNat = 2 ∨
      varintParseLen (UInt8.ofNat low ||| 0x40).toNat = 8 := by decide +kernel
  have is := every first.toNat first.toNat_lt
  rwa [UInt8.ofNat_toNat] at is

theorem getU_ok {width read : Nat} (returned : getU width octets = .ok read after) :
    width ≤ octets.cap ∧ after = octets.advance width := by
  rcases getU_cases width octets with ⟨_, failed⟩ | ⟨fits, value, same⟩
  · cases failed.symm.trans returned
  · cases same.symm.trans returned
    exact ⟨fits, rfl⟩

theorem map_getU_ok {width mask read : Nat} (returned : ((· &&& mask) <$> getU width) octets = .ok read after) :
    width ≤ octets.cap ∧ after = octets.advance width ∧ read ≤ mask := by
  cases called : getU width octets with
  | ok value next =>
    have mapped : ((· &&& mask) <$> getU width) octets = .ok (value &&& mask) next := by
      show EStateM.map _ _ octets = _
      simp only [EStateM.map, called]
    cases mapped.symm.trans returned
    obtain ⟨fits, advanced⟩ := getU_ok called
    exact ⟨fits, advanced, Nat.and_le_right⟩
  | error fault next =>
    have failed : ((· &&& mask) <$> getU width) octets = .error fault next := by
      show EStateM.map _ _ octets = _
      simp only [EStateM.map, called]
    cases failed.symm.trans returned

theorem getVarint_forced (front : octets.rest = forced value ++ tail) :
    getVarint octets = .ok value (octets.advance 2) ↔ value < 2 ^ 14 := by
  constructor
  · intro read
    have single : octets.rest = [UInt8.ofNat (value / 256 ^ 1) ||| 0x40] ++
        (UInt8.ofNat (value / 256 ^ 0) :: tail) := front
    have peeked : peekU8 octets = .ok (UInt8.ofNat (value / 256 ^ 1) ||| 0x40).toNat octets := by
      have peek := peekU_rest single rfl
      simp only [ofBigEndian, List.length_nil, Nat.pow_zero, Nat.mul_one, Nat.add_zero] at peek
      exact peek
    rw [getVarint, bind_ok peeked, get_bind] at read
    by_cases short : varintParseLen (UInt8.ofNat (value / 256 ^ 1) ||| 0x40).toNat > octets.cap
    · rw [if_pos short] at read
      cases read
    · rw [if_neg short] at read
      rcases varintParseLen_forced (UInt8.ofNat (value / 256 ^ 1)) with two | eight
      · rw [two] at read
        have bounded := (map_getU_ok read).2.2
        omega
      · rw [eight] at read
        obtain ⟨fits, advanced, _⟩ := map_getU_ok read
        have moved := congrArg Octets.off advanced
        simp only [advance, cap] at moved fits
        omega
  · intro small
    rw [forced_small small] at front
    exact reads_getVarint .two (by simpa [FitsVarint] using small) octets tail front

end Forced

end Quiche.Octets
