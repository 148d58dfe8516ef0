import Quiche.H3.Qpack.Strings

namespace Quiche.H3.Qpack

open Data Octets

def groups : List UInt8 → Option (Nat × Nat)
  | [] => none
  | byte :: rest =>
    if byte.toNat < 128 then some (byte.toNat, 1)
    else (groups rest).map fun found => (byte.toNat % 128 + 128 * found.1, found.2 + 1)

/-- The integer with a prefix of `width` bits at the front of `input` (RFC 7541, section 5.1), and how many
bytes it takes. -/
def integer (width : Nat) : List UInt8 → Option (Nat × Nat)
  | [] => none
  | first :: rest =>
    if first.toNat % 2 ^ width < 2 ^ width - 1 then some (first.toNat % 2 ^ width, 1)
    else (groups rest).map fun found => (2 ^ width - 1 + found.1, found.2 + 1)

/-- What the loop of `decode_int` keeps of the number, from the group at `place` on: of the tenth group a
single bit, and nothing of any further one. -/
def limited : Nat → List UInt8 → Option (Nat × Nat)
  | _, [] => none
  | place, byte :: rest =>
    let digit := if place < 9 then byte.toNat % 128 else byte.toNat % 2
    if 9 < place then none
    else if byte.toNat < 128 then some (digit, 1)
    else (limited (place + 1) rest).map fun found => (digit + 128 * found.1, found.2 + 1)

/-- The result is the expected number with its bytes consumed, or `BufferTooShort` when none is expected. -/
def Yields (expected : Option (Nat × Nat)) (octets : Octets) (result : EStateM.Result Failure Octets Nat) : Prop :=
  match expected with
  | some (value, len) => result = .ok value (octets.advance len)
  | none => ∃ after, result = .error (.error .bufferTooShort) after

/-- Numbers of 64 bits. -/
def fitting (found : Nat × Nat) : Option (Nat × Nat) :=
  if found.1 < 2 ^ 64 then some found else none

section Groups

variable {bytes rest : List UInt8} {place value len : Nat}

theorem groups_length (found : groups bytes = some (value, len)) : 0 < len ∧ len ≤ bytes.length := by
  induction bytes generalizing value len with
  | nil => cases found
  | cons byte rest ih =>
    rw [groups] at found
    split at found
    · cases found
      simp
    · obtain ⟨⟨high, behind⟩, inner, same⟩ := Option.map_eq_some_iff.mp found
      cases same
      have bounds := ih inner
      rw [List.length_cons]
      omega

theorem groups_last (found : groups bytes = some (value, len)) :
    ∃ last ∈ bytes[len - 1]?, last.toNat < 128 ∧ last.toNat * 2 ^ (7 * (len - 1)) ≤ value := by
  induction bytes generalizing value len with
  | nil => cases found
  | cons byte rest ih =>
    rw [groups] at found
    split at found
    · rename_i final
      cases found
      exact ⟨byte, rfl, final, by simp⟩
    · obtain ⟨⟨high, behind⟩, inner, same⟩ := Option.map_eq_some_iff.mp found
      cases same
      obtain ⟨last, is, final, below⟩ := ih inner
      have positive := (groups_length inner).1
      obtain ⟨before, rfl⟩ : ∃ before, behind = before + 1 := ⟨behind - 1, by omega⟩
      refine ⟨last, is, final, ?_⟩
      simp only [Nat.add_sub_cancel] at below ⊢
      calc last.toNat * 2 ^ (7 * (before + 1)) = 128 * (last.toNat * 2 ^ (7 * before)) := by ring
        _ ≤ 128 * high := Nat.mul_le_mul_left 128 below
        _ ≤ byte.toNat % 128 + 128 * high := Nat.le_add_left _ _

theorem limited_none (found : groups bytes = none) (place : Nat) : limited place bytes = none := by
  induction bytes generalizing place with
  | nil => rfl
  | cons byte rest ih =>
    rw [groups] at found
    split at found
    · cases found
    · rename_i more
      have inner := Option.map_eq_none_iff.mp found
      simp only [limited, if_neg more, ih inner]
      split <;> rfl

section

variable (found : groups bytes = some (value, len))

include found

theorem limited_short (short : place + len ≤ 9) :
    limited place bytes = some (value, len) := by
  induction bytes generalizing place value len with
  | nil => cases found
  | cons byte rest ih =>
    have positive := (groups_length found).1
    rw [groups] at found
    have early : place < 9 := by omega
    simp only [limited, if_pos early, if_neg (show ¬ 9 < place by omega)]
    split at found
    · rename_i final
      cases found
      rw [if_pos final, Nat.mod_eq_of_lt final]
    · rename_i more
      obtain ⟨⟨high, behind⟩, inner, same⟩ := Option.map_eq_some_iff.mp found
      cases same
      rw [if_neg more, ih inner (by omega)]
      rfl

theorem limited_long (long : 10 < place + len) :
    limited place bytes = none := by
  induction bytes generalizing place value len with
  | nil => rfl
  | cons byte rest ih =>
    rw [groups] at found
    simp only [limited]
    split
    · rfl
    · rename_i near
      split at found
      · cases found
        omega
      · rename_i more
        obtain ⟨⟨high, behind⟩, inner, same⟩ := Option.map_eq_some_iff.mp found
        cases same
        rw [if_neg more, ih inner (by omega)]
        rfl

theorem limited_tenth (tenth : place + len = 10) {last : UInt8}
    (is : bytes[len - 1]? = some last) :
    ∃ kept, limited place bytes = some (kept, len) ∧ kept + last.toNat / 2 * 2 ^ (7 * (len - 1) + 1) = value := by
  induction bytes generalizing place value len with
  | nil => cases found
  | cons byte rest ih =>
    rw [groups] at found
    split at found
    · rename_i final
      cases found
      have same : byte = last := Option.some.inj is
      subst same
      refine ⟨byte.toNat % 2, ?_, by omega⟩
      simp only [limited, if_neg (show ¬ place < 9 by omega), if_neg (show ¬ 9 < place by omega), if_pos final]
    · rename_i more
      obtain ⟨⟨high, behind⟩, inner, same⟩ := Option.map_eq_some_iff.mp found
      cases same
      have positive := (groups_length inner).1
      obtain ⟨before, rfl⟩ : ∃ before, behind = before + 1 := ⟨behind - 1, by omega⟩
      have next : place + 1 + (before + 1) = 10 := by omega
      obtain ⟨kept, limits, whole⟩ := ih inner next is
      refine ⟨byte.toNat % 128 + 128 * kept, ?_, ?_⟩
      · simp only [limited, if_pos (show place < 9 by omega), if_neg (show ¬ 9 < place by omega), if_neg more, limits]
        rfl
      · simp only [Nat.add_sub_cancel] at whole ⊢
        rw [← whole]
        ring

end

end Groups

section Decoding

variable {width val place : Nat} {octets : Octets}

theorem yields_behind {found : Option (Nat × Nat)} {result : EStateM.Result Failure Octets Nat}
    (yields : Yields found (octets.advance 1) result) :
    Yields (found.map fun found => (found.1, found.2 + 1)) octets result := by
  cases found with
  | none => exact yields
  | some found =>
    have moved := cursor.advance_advance 1 found.2 octets
    rw [Nat.add_comm] at moved
    exact yields.trans (congrArg (EStateM.Result.ok found.1) moved)

theorem getU8_empty (front : octets.rest = []) :
    Qpack.octets getU8 octets = .error (.error .bufferTooShort) octets := by
  have empty : octets.cap < 1 := by
    rw [← rest_length, front]
    decide
  have short : getU8 octets = .error (.error .bufferTooShort) octets := by
    rw [getU8, getU]
    exact bind_error (congrFun (if_pos empty) octets) _
  exact adaptExcept_error short ofFault

theorem shlU64_group (byte : UInt8) (near : place < 10) : shlU64 (byte.toNat &&& 0x7f) (7 * place) =
      (if place < 9 then byte.toNat % 128 else byte.toNat % 2) * 2 ^ (7 * place) := by
  have low : byte.toNat &&& 0x7f = byte.toNat % 128 := Nat.and_two_pow_sub_one_eq_mod _ 7
  rw [low]
  split
  · have small : byte.toNat % 128 < 2 ^ 7 := Nat.mod_lt _ (by decide)
    exact shlU64_of_lt small (by omega)
  · have ninth : place = 9 := by omega
    subst ninth
    rw [shlU64, Nat.shiftLeft_eq]
    omega

theorem last_bit (byte : UInt8) : byte.toNat &&& 0x80 = 0 ↔ byte.toNat < 128 := by
  constructor
  · intro clear
    by_contra high
    obtain ⟨low, whole⟩ : ∃ low, byte.toNat = low + 128 := ⟨byte.toNat - 128, by omega⟩
    have bound := byte.toNat_lt
    exact (more_bit low (by omega)).2 (whole ▸ clear)
  · exact fun small => (more_bit byte.toNat small).1

theorem fitting_next (val digit place : Nat) (found : Option (Nat × Nat)) :
    ((found.map fun found => (digit + 128 * found.1, found.2 + 1)).bind fun found =>
        fitting (val + found.1 * 2 ^ (7 * place), found.2)) =
      (found.bind fun found => fitting (val + digit * 2 ^ (7 * place) + found.1 * 2 ^ (7 * (place + 1)), found.2)).map
        fun found => (found.1, found.2 + 1) := by
  cases found with
  | none => rfl
  | some found =>
    have sum : val + (digit + 128 * found.1) * 2 ^ (7 * place) =
        val + digit * 2 ^ (7 * place) + found.1 * 2 ^ (7 * (place + 1)) := by ring
    simp only [Option.map_some, Option.bind_some, fitting, sum]
    split <;> rfl

theorem fitting_overflow {digit : Nat} (overflows : ¬ val + digit * 2 ^ (7 * place) < 2 ^ 64)
    (found : Option (Nat × Nat)) : ((found.map fun found => (digit + 128 * found.1, found.2 + 1)).bind fun found =>
        fitting (val + found.1 * 2 ^ (7 * place), found.2)) = none := by
  cases found with
  | none => rfl
  | some found =>
    refine if_neg fun fits => overflows ?_
    calc val + digit * 2 ^ (7 * place) ≤ val + (digit + 128 * found.1) * 2 ^ (7 * place) :=
          Nat.add_le_add_left (Nat.mul_le_mul_right _ (Nat.le_add_right _ _)) _
      _ < 2 ^ 64 := fits

theorem decodeRest_yields (near : place ≤ 10) (small : val < 2 ^ 64) (octets : Octets) :
    Yields ((limited place octets.rest).bind fun found => fitting (val + found.1 * 2 ^ (7 * place), found.2))
      octets (decodeRest octets.cap val (7 * place) octets) := by
  generalize front : octets.rest = bytes
  induction bytes generalizing octets place val with
  | nil =>
    have empty : octets.cap = 0 := by rw [← rest_length, front]; rfl
    rw [empty]
    exact ⟨octets, rfl⟩
  | cons byte rest ih =>
    have capacity : octets.cap = rest.length + 1 := by rw [← rest_length, front]; rfl
    have taken : Qpack.octets getU8 octets = .ok byte.toNat (octets.advance 1) := reads_byte byte octets rest front
    have behind : (octets.advance 1).rest = rest :=
      cursor.rest_behind (show cursor.rest octets = [byte] ++ rest from front)
    have left : (octets.advance 1).cap = rest.length := by rw [← rest_length, behind]
    have bit := last_bit byte
    rw [capacity, decodeRest, bind_ok taken]
    by_cases far : 9 < place
    · have overflows : 64 ≤ 7 * place := by omega
      simp only [limited, if_pos far, if_pos overflows]
      exact ⟨_, rfl⟩
    · have within : ¬ 64 ≤ 7 * place := by omega
      simp only [limited, if_neg far, if_neg within, shlU64_group byte (show place < 10 by omega)]
      generalize (if place < 9 then byte.toNat % 128 else byte.toNat % 2) = digit
      by_cases fits : val + digit * 2 ^ (7 * place) < 2 ^ 64
      · simp only [addU64_of_lt fits, bit]
        by_cases final : byte.toNat < 128
        · simp only [if_pos final, Option.bind_some, fitting, if_pos fits]
          rfl
        · have further := yields_behind (ih (show place + 1 ≤ 10 by omega) fits (octets.advance 1) behind)
          rw [left] at further
          simp only [if_neg final, fitting_next]
          exact further
      · have overflow : addU64 val (digit * 2 ^ (7 * place)) = none := if_neg fits
        have failed : (if byte.toNat < 128 then some (digit, 1)
            else (limited (place + 1) rest).map fun found => (digit + 128 * found.1, found.2 + 1)).bind
              (fun found => fitting (val + found.1 * 2 ^ (7 * place), found.2)) = none := by
          split
          · exact if_neg fits
          · exact fitting_overflow fits _
        simp only [overflow, failed]
        exact ⟨_, rfl⟩

/-- What `decode_int` takes for the integer at the front. -/
def decoded (width : Nat) : List UInt8 → Option (Nat × Nat)
  | [] => none
  | first :: rest =>
    if first.toNat % 2 ^ width < 2 ^ width - 1 then some (first.toNat % 2 ^ width, 1)
    else ((limited 0 rest).bind fun found => fitting (2 ^ width - 1 + found.1, found.2)).map fun found =>
      (found.1, found.2 + 1)

theorem decodeInt_yields (within : width ≤ 8) (octets : Octets) :
    Yields (decoded width octets.rest) octets (decodeInt width octets) := by
  cases front : octets.rest with
  | nil => exact ⟨octets, bind_error (getU8_empty front) _⟩
  | cons first rest =>
    have taken : Qpack.octets getU8 octets = .ok first.toNat (octets.advance 1) := reads_byte first octets rest front
    have behind : (octets.advance 1).rest = rest :=
      cursor.rest_behind (show cursor.rest octets = [first] ++ rest from front)
    rw [decodeInt, bind_ok taken]
    simp only [decoded, Nat.and_two_pow_sub_one_eq_mod]
    by_cases short : first.toNat % 2 ^ width < 2 ^ width - 1
    · simp only [if_pos short]
      rfl
    · simp only [if_neg short]
      have power : 2 ^ width ≤ 2 ^ 8 := Nat.pow_le_pow_right (by decide) within
      have full : first.toNat % 2 ^ width = 2 ^ width - 1 := by
        have below := Nat.mod_lt first.toNat (Nat.two_pow_pos width)
        omega
      have looped := decodeRest_yields (Nat.zero_le 10) (show 2 ^ width - 1 < 2 ^ 64 by omega) (octets.advance 1)
      simp only [behind, Nat.mul_zero, Nat.pow_zero, Nat.mul_one] at looped
      rw [full]
      exact yields_behind looped

end Decoding

section Exact

variable {width : Nat} {octets : Octets}

/-- `decode_int` gives the number that the bytes stand for when it fits into 64 bits, and an error otherwise. -/
def DecodesExactly (width : Nat) (octets : Octets) : Prop :=
  Yields ((integer width octets.rest).bind fitting) octets (decodeInt width octets)

/-- A number that takes more bytes than `decode_int` reads does not fit into 64 bits, and the bits it drops of the
last byte do not hide that. -/
def Unambiguous (width : Nat) (input : List UInt8) : Prop :=
  ∀ value len, integer width input = some (value, len) → (11 < len → 2 ^ 64 ≤ value) ∧
      (len = 11 → ∀ last ∈ input[10]?, 2 ≤ last.toNat → (last.toNat / 2 + 1) * 2 ^ 64 ≤ value)

variable {result : EStateM.Result Failure Octets Nat}

theorem not_yields_some {found : Nat × Nat}
    (failed : Yields none octets result) : ¬ Yields (some found) octets result := by
  intro returned
  obtain ⟨after, error⟩ := failed
  cases error.symm.trans returned

theorem not_yields_none {found : Nat × Nat}
    (returned : Yields (some found) octets result) : ¬ Yields none octets result :=
  fun failed => not_yields_some failed returned

theorem yields_fitting_iff {expected actual len : Nat} (same : expected < 2 ^ 64 → actual = expected)
    (yields : Yields (fitting (actual, len)) octets result) :
    Yields (fitting (expected, len)) octets result ↔ (actual < 2 ^ 64 → expected < 2 ^ 64) := by
  by_cases fits : actual < 2 ^ 64
  · simp only [fitting, if_pos fits] at yields
    by_cases small : expected < 2 ^ 64
    · simp only [fitting, if_pos small]
      exact ⟨fun _ _ => small, fun _ => same small ▸ yields⟩
    · simp only [fitting, if_neg small]
      exact ⟨fun failed => absurd failed (not_yields_none yields), fun bound => absurd (bound fits) small⟩
  · simp only [fitting, if_neg fits] at yields
    have large : ¬ expected < 2 ^ 64 := fun small => fits (same small ▸ small)
    simp only [fitting, if_neg large]
    exact ⟨fun _ bound => absurd bound fits, fun _ => yields⟩

theorem exact_of_groups {rest : List UInt8} {value len mask : Nat} (found : groups rest = some (value, len))
    (yields : Yields (((limited 0 rest).bind fun found => fitting (mask + found.1, found.2)).map fun found =>
      (found.1, found.2 + 1)) octets result) :
    Yields (fitting (mask + value, len + 1)) octets result ↔ (11 < len + 1 → 2 ^ 64 ≤ mask + value) ∧
        (len + 1 = 11 → ∀ last ∈ rest[9]?, 2 ≤ last.toNat → (last.toNat / 2 + 1) * 2 ^ 64 ≤ mask + value) := by
  have raised : ∀ total, (fitting (total, len)).map (fun found => (found.1, found.2 + 1)) = fitting (total, len + 1) := by
    intro total
    simp only [fitting]
    split <;> rfl
  rcases Nat.lt_trichotomy len 10 with short | tenth | long
  · rw [limited_short found (by omega)] at yields
    simp only [Option.bind_some, raised] at yields
    refine ⟨fun _ => ⟨by omega, by omega⟩, fun _ => yields⟩
  · subst tenth
    obtain ⟨last, is, _, below⟩ := groups_last found
    obtain ⟨kept, limits, whole⟩ := limited_tenth found (Nat.zero_add 10) is
    simp only [Nat.reduceMul, Nat.reduceAdd, Nat.reduceSub] at below whole is
    rw [limits] at yields
    simp only [Option.bind_some, raised] at yields
    rw [yields_fitting_iff (by omega) yields]
    constructor
    · intro fits
      refine ⟨by omega, fun _ other is' high => ?_⟩
      have same : last = other := Option.some.inj (is.symm.trans is')
      subst same
      have large : ¬ mask + value < 2 ^ 64 := by omega
      have full : 2 ^ 64 ≤ mask + kept := Nat.not_lt.mp fun small => large (fits small)
      calc (last.toNat / 2 + 1) * 2 ^ 64 = last.toNat / 2 * 2 ^ 64 + 2 ^ 64 := Nat.succ_mul _ _
        _ ≤ last.toNat / 2 * 2 ^ 64 + (mask + kept) := Nat.add_le_add_left full _
        _ = mask + value := by rw [← whole, Nat.add_left_comm, Nat.add_comm (last.toNat / 2 * 2 ^ 64)]
    · rintro ⟨_, loses⟩ intact
      by_contra large
      have high : 2 ≤ last.toNat := by omega
      have lost := loses rfl last is high
      omega
  · rw [limited_long found (by omega)] at yields
    by_cases fits : mask + value < 2 ^ 64
    · simp only [fitting, if_pos fits]
      refine ⟨fun returned => absurd returned (not_yields_some yields), ?_⟩
      rintro ⟨large, _⟩
      have bound := large (by omega)
      omega
    · simp only [fitting, if_neg fits]
      exact ⟨fun _ => ⟨fun _ => Nat.not_lt.mp fits, by omega⟩, fun _ => yields⟩

theorem decodesExactly_iff (within : width ≤ 8) (octets : Octets) :
    DecodesExactly width octets ↔ Unambiguous width octets.rest := by
  have yields := decodeInt_yields within octets
  rw [DecodesExactly, Unambiguous]
  generalize octets.rest = input at yields
  cases input with
  | nil => exact ⟨fun _ _ _ found => (by cases found), fun _ => yields⟩
  | cons first rest =>
    have byte := first.toNat_lt
    rw [decoded] at yields
    rw [integer]
    split at yields
    · rename_i short
      have fits : fitting (first.toNat % 2 ^ width, 1) = some (first.toNat % 2 ^ width, 1) := by
        have below := Nat.mod_le first.toNat (2 ^ width)
        exact if_pos (by omega)
      simp only [if_pos short, Option.bind_some, fits]
      refine ⟨fun _ value len found => ?_, fun _ => yields⟩
      cases found
      exact ⟨by omega, by omega⟩
    · rename_i long
      simp only [if_neg long]
      cases found : groups rest with
      | none =>
        rw [limited_none found] at yields
        exact ⟨fun _ _ _ other => (by cases other), fun _ => yields⟩
      | some number =>
        obtain ⟨value, len⟩ := number
        have exact_ := exact_of_groups found yields
        simp only [Option.map_some, Option.bind_some]
        rw [exact_]
        constructor
        · intro condition total size same
          cases same
          exact condition
        · exact fun condition => condition _ _ rfl

/-- What is encoded is decoded as it was, and an integer is decoded exactly where no bit of it is shifted out
unnoticed. -/
theorem prefix_integers_exact (width : Nat) (within : width ≤ 8) :
    (∀ v < 2 ^ 64, ∀ first < 256, first &&& (2 ^ width - 1) = 0 →
      ∃ output, Appends (encodeInt v first width) output () ∧ Reads cursor (decodeInt width) output v) ∧
    ∀ octets, DecodesExactly width octets ↔ Unambiguous width octets.rest := by
  constructor
  · intro v fits first byte clear
    obtain ⟨output, prefixed⟩ := encodeInt_exists fits within byte clear
    exact ⟨output, prefixed.appends, prefixed.reads⟩
  · exact decodesExactly_iff within

theorem prefix_integers_exact_seven :
    (∃ output, Appends (encodeInt 1337 0x80 7) output () ∧ Reads cursor (decodeInt 7) output 1337) ∧
      (DecodesExactly 7 (.withSlice [0xff, 0x9a, 0x0a]) ↔ Unambiguous 7 [0xff, 0x9a, 0x0a]) :=
  ⟨(prefix_integers_exact 7 (by decide)).1 1337 (by decide) 0x80 (by decide) (by decide),
    (prefix_integers_exact 7 (by decide)).2 (.withSlice [0xff, 0x9a, 0x0a])⟩

/-- The second bit of the tenth group is worth `2 ^ 64`. -/
def overlong : List UInt8 := 0x7f :: List.replicate 9 0x80 ++ [0x02]

/-- It is shifted out, and what is left is taken for the length of a string. -/
theorem overlong_truncated : integer 7 overlong = some (2 ^ 64 + 127, 11) ∧
      decodeInt 7 (.withSlice overlong) = .ok 127 ((Octets.withSlice overlong).advance 11) ∧
        ¬ DecodesExactly 7 (.withSlice overlong) := by
  have value : integer 7 overlong = some (2 ^ 64 + 127, 11) := by decide +kernel
  have truncated : decodeInt 7 (.withSlice overlong) = .ok 127 ((Octets.withSlice overlong).advance 11) := by
    have yields := decodeInt_yields (show 7 ≤ 8 by decide) (.withSlice overlong)
    have taken : decoded 7 (Octets.withSlice overlong).rest = some (127, 11) := by decide +kernel
    rw [taken] at yields
    exact yields
  refine ⟨value, truncated, fun exactly => ?_⟩
  have large : (integer 7 (Octets.withSlice overlong).rest).bind fitting = none := by decide +kernel
  rw [DecodesExactly, large] at exactly
  obtain ⟨after, failed⟩ := exactly
  cases truncated.symm.trans failed

end Exact

end Quiche.H3.Qpack
