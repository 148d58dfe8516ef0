import Quiche.H3.Qpack
import Quiche.Octets.Huffman.Encode

namespace Quiche.H3.Qpack

open Data Octets

section Calls

variable {Value : Type} {call : Octets.Action Value} {input output : List UInt8} {value : Value}

theorem reads_byte (byte : UInt8) : Reads cursor (octets getU8) [byte] byte.toNat := by
  have read : Reads cursor (getU 1) (bigEndian 1 byte.toNat) byte.toNat := reads_getU_of_lt byte.toNat_lt
  have single : bigEndian 1 byte.toNat = [byte] := by simp [bigEndian]
  exact (single ▸ read).adaptExcept ofFault

theorem reads_peek {byte : UInt8} {rest : List UInt8} {next : Nat → Action Value}
    (reads : Reads cursor (next byte.toNat) (byte :: rest) value) :
    Reads cursor (octets peekU8 >>= next) (byte :: rest) value := by
  intro state tail front
  have single : state.rest = [byte] ++ (rest ++ tail) := front
  have peeked : octets peekU8 state = .ok byte.toNat state := by
    have peek : peekU 1 state = .ok (ofBigEndian [byte]) state := peekU_rest single rfl
    have value : ofBigEndian [byte] = byte.toNat := by simp [ofBigEndian]
    rw [octets, EStateM.adaptExcept, peekU8, peek, value]
  rw [← reads state tail front]
  show EStateM.bind (octets peekU8) next state = _
  simp only [EStateM.bind, peeked]

theorem reads_turns {next : Nat → Action Value}
    (reads : ∀ turns, input.length ≤ turns → Reads cursor (next turns) input value) :
    Reads cursor (do next (← get).cap) input value := by
  intro state tail front
  have length : state.rest.length = (input ++ tail).length := congrArg List.length front
  rw [rest_length, List.length_append] at length
  exact reads state.cap (by omega) state tail front

end Calls

section Integers

variable {v first width : Nat}

/-- The bytes behind the first one of an integer, for what is left of it. -/
structure Continues (v : Nat) (output : List UInt8) : Prop where
  appends : Appends (encodeRest v) output ()
  length_le : ∀ groups, v < 2 ^ (7 * groups + 7) → output.length ≤ groups + 1
  reads : ∀ turns val shift, output.length ≤ turns → val + v * 2 ^ shift < 2 ^ 64 → shift < 64 →
    Reads cursor (decodeRest turns val shift) output (val + v * 2 ^ shift)

theorem putU8_appends (value : Nat) : Appends (putU8 value) [UInt8.ofNat value] () := by
  have appends := appends_putU 1 value
  have single : bigEndian 1 value = [UInt8.ofNat value] := by simp [bigEndian]
  exact single ▸ appends

theorem reads_decodeRest {byte : UInt8} {rest : List UInt8} {turns val shift total : Nat} (near : shift < 64)
    (bound : val + byte.toNat % 128 * 2 ^ shift < 2 ^ 64)
    (next : Reads cursor (if byte.toNat &&& 0x80 = 0 then pure (val + byte.toNat % 128 * 2 ^ shift)
      else decodeRest turns (val + byte.toNat % 128 * 2 ^ shift) (shift + 7)) rest total) :
    Reads cursor (decodeRest (turns + 1) val shift) (byte :: rest) total := by
  have low : byte.toNat &&& 0x7f = byte.toNat % 128 := Nat.and_two_pow_sub_one_eq_mod _ 7
  have shifted : shlU64 (byte.toNat % 128) shift = byte.toNat % 128 * 2 ^ shift := by
    rw [shlU64, Nat.shiftLeft_eq, Nat.mod_eq_of_lt (by omega)]
  show Reads cursor (octets getU8 >>= _) ([byte] ++ rest) total
  apply (reads_byte byte).bind
  simp only [if_neg (Nat.not_le.mpr near), low, shifted, addU64_of_lt bound]
  exact next

theorem more_bit : ∀ digit < 128, digit &&& 0x80 = 0 ∧ (digit + 128) &&& 0x80 ≠ 0 := by decide

theorem digits_split (v shift : Nat) : v * 2 ^ shift = v % 128 * 2 ^ shift + v / 128 * 2 ^ (shift + 7) := by
  calc v * 2 ^ shift = (v % 128 + 128 * (v / 128)) * 2 ^ shift := by rw [Nat.mod_add_div]
    _ = v % 128 * 2 ^ shift + v / 128 * 2 ^ (shift + 7) := by ring

theorem encodeRest_exists (v : Nat) : ∃ output, Continues v output := by
  induction v using encodeRest.induct with
  | case1 v more ih =>
    obtain ⟨output, continues⟩ := ih
    have quotient : v >>> 7 = v / 128 := Nat.shiftRight_eq_div_pow v 7
    rw [quotient] at continues
    have byte : (UInt8.ofNat (v % 128 + 128)).toNat = v % 128 + 128 := by
      rw [UInt8.toNat_ofNat']
      omega
    refine ⟨UInt8.ofNat (v % 128 + 128) :: output, ?_, ?_, ?_⟩
    · rw [encodeRest, if_pos more, quotient]
      exact (putU8_appends _).bind continues.appends
    · intro groups bound
      cases groups with
      | zero => omega
      | succ groups =>
        have power : 2 ^ (7 * (groups + 1) + 7) = 128 * 2 ^ (7 * groups + 7) := by ring
        exact Nat.succ_le_succ (continues.length_le groups (by omega))
    · intro turns val shift enough fits near
      cases turns with
      | zero => contradiction
      | succ turns =>
        have digit : (v % 128 + 128) % 128 = v % 128 := by omega
        have marked := (more_bit (v % 128) (Nat.mod_lt v (by decide))).2
        have further : shift + 7 < 64 := by
          apply (Nat.pow_lt_pow_iff_right Nat.one_lt_two).mp
          calc 2 ^ (shift + 7) = 128 * 2 ^ shift := by ring
            _ ≤ v * 2 ^ shift := Nat.mul_le_mul_right _ more
            _ < 2 ^ 64 := by omega
        rw [digits_split] at fits ⊢
        refine reads_decodeRest near ?_ ?_
        · rw [byte, digit]
          omega
        · rw [byte, digit, if_neg marked, ← Nat.add_assoc]
          exact continues.reads turns _ _ (Nat.le_of_succ_le_succ enough) (by omega) further
  | case2 v last =>
    have small : (UInt8.ofNat v).toNat = v := by
      rw [UInt8.toNat_ofNat']
      omega
    refine ⟨[UInt8.ofNat v], ?_, ?_, ?_⟩
    · rw [encodeRest, if_neg last]
      exact putU8_appends v
    · intro groups _
      exact Nat.succ_le_succ (Nat.zero_le groups)
    · intro turns val shift enough fits near
      cases turns with
      | zero => contradiction
      | succ turns =>
        have digit : v % 128 = v := Nat.mod_eq_of_lt (Nat.not_le.mp last)
        have unmarked := (more_bit v (Nat.not_le.mp last)).1
        refine reads_decodeRest near ?_ ?_
        · rw [small, digit]
          exact fits
        · rw [small, digit, if_pos unmarked]
          exact reads_pure _

/-- The bytes of an integer, the first of which has the bits of `first` above the prefix. -/
structure Prefixed (v first width : Nat) (output : List UInt8) : Prop where
  appends : Appends (encodeInt v first width) output ()
  length_le : output.length ≤ 11
  first_byte : ∃ low < 2 ^ width, ∃ rest, output = UInt8.ofNat (first ||| low) :: rest
  reads : Reads cursor (decodeInt width) output v

theorem masked_or {low : Nat} (small : low < 2 ^ width) (within : width ≤ 8) (byte : first < 256)
    (clear : first &&& (2 ^ width - 1) = 0) : (UInt8.ofNat (first ||| low)).toNat &&& (2 ^ width - 1) = low := by
  have bound : first ||| low < 2 ^ 8 :=
    Nat.or_lt_two_pow byte (Nat.lt_of_lt_of_le small (Nat.pow_le_pow_right (by decide) within))
  rw [UInt8.toNat_ofNat', Nat.mod_eq_of_lt bound, Nat.and_or_distrib_right, clear, Nat.zero_or,
    Nat.and_two_pow_sub_one_eq_mod, Nat.mod_eq_of_lt small]

theorem encodeInt_exists (fits : v < 2 ^ 64) (within : width ≤ 8) (byte : first < 256)
    (clear : first &&& (2 ^ width - 1) = 0) : ∃ output, Prefixed v first width output := by
  have positive := Nat.two_pow_pos width
  by_cases short : v < 2 ^ width - 1
  · have small : v < 2 ^ width := Nat.lt_of_lt_of_le short (Nat.sub_le _ 1)
    have low := masked_or small within byte clear
    refine ⟨[UInt8.ofNat (first ||| v)], ?_, by simp, ⟨v, small, [], rfl⟩, ?_⟩
    · simp only [encodeInt, if_pos short]
      exact putU8_appends _
    · show Reads cursor (octets getU8 >>= _) [UInt8.ofNat (first ||| v)] v
      apply (reads_byte _).bind_pure
      simp only [low, if_pos short]
  · obtain ⟨rest, continues⟩ := encodeRest_exists (v - (2 ^ width - 1))
    have small : 2 ^ width - 1 < 2 ^ width := by omega
    have low := masked_or small within byte clear
    have length := continues.length_le 9 (by omega)
    refine ⟨UInt8.ofNat (first ||| (2 ^ width - 1)) :: rest, ?_, Nat.succ_le_succ length, ⟨_, small, rest, rfl⟩, ?_⟩
    · simp only [encodeInt, if_neg short]
      exact (putU8_appends _).bind continues.appends
    · have others : ∀ turns, rest.length ≤ turns → Reads cursor (decodeRest turns (2 ^ width - 1) 0) rest v := by
        intro turns enough
        have reads := continues.reads turns (2 ^ width - 1) 0 enough (by omega) (by decide)
        rwa [Nat.pow_zero, Nat.mul_one, Nat.add_sub_cancel' (Nat.not_lt.mp short)] at reads
      show Reads cursor (octets getU8 >>= _) ([UInt8.ofNat (first ||| (2 ^ width - 1))] ++ rest) v
      apply (reads_byte _).bind
      simp only [low, Nat.lt_irrefl, if_false]
      exact reads_turns others

end Integers

section Strings

variable {text : List UInt8} {first width : Nat}

/-- The bits of the first byte leave room for the Huffman bit and for the length prefix. -/
structure StringPrefix (first width : Nat) : Prop where
  within : width ≤ 8
  byte : first ||| 1 <<< width < 256
  clear : first &&& (2 ^ width - 1) = 0
  clearMarked : (first ||| 1 <<< width) &&& (2 ^ width - 1) = 0
  marked : ∀ low < 2 ^ width, (UInt8.ofNat (first ||| 1 <<< width ||| low)).toNat &&& 2 ^ width = 2 ^ width
  plain : ∀ low < 2 ^ width, (UInt8.ofNat (first ||| low)).toNat &&& 2 ^ width ≠ 2 ^ width

theorem valuePrefix : StringPrefix 0 7 := ⟨by decide, by decide, by decide, by decide, by decide, by decide⟩

theorem namePrefix : StringPrefix literal 3 := ⟨by decide, by decide, by decide, by decide, by decide, by decide⟩

def decodeText (first width : Nat) : Action (List UInt8) := do
  let len ← decodeInt width
  let val ← octets (getBytes len)
  decodeBytes (first &&& 2 ^ width = 2 ^ width) val

/-- The output is the encoding of the text, and decoding it behind its first byte gives the text. -/
structure Spelled (lowerCase : Bool) (text : List UInt8) (first width : Nat) (output : List UInt8) : Prop where
  appends : Appends (encodeStr lowerCase text first width) output ()
  length_le : output.length ≤ text.length + 11
  reads : ∃ low < 2 ^ (width + 1), ∃ rest, output = UInt8.ofNat (first ||| low) :: rest ∧
    Reads cursor (decodeText (UInt8.ofNat (first ||| low)).toNat width) output (text.map (fold lowerCase))

theorem length_le_textSize (lowerCase : Bool) (text : List UInt8) : text.length ≤ textSize lowerCase text := by
  induction text with
  | nil => exact Nat.zero_le _
  | cons byte rest ih =>
    have word := (encodeEntry_fits (fold lowerCase byte)).1
    rw [textSize, List.map_cons, List.sum_cons, ← textSize, List.length_cons]
    omega

theorem encodeStr_exists (mark : StringPrefix first width) (lowerCase : Bool)
    (countable : textSize lowerCase text < 2 ^ 64) : ∃ output, Spelled lowerCase text first width output := by
  have wide : 2 ^ width ≤ 2 ^ (width + 1) := Nat.pow_le_pow_right (by decide) (Nat.le_succ width)
  have length := length_le_textSize lowerCase text
  have chosen := huffmanEncodingLen_eq lowerCase text
  rw [if_pos countable] at chosen
  by_cases long : (textSize lowerCase text + 7) / 8 > text.length
  · rw [if_pos long] at chosen
    have byte := Nat.lt_of_le_of_lt Nat.left_le_or mark.byte
    obtain ⟨head, prefixed⟩ := encodeInt_exists (Nat.lt_of_le_of_lt length countable) mark.within byte mark.clear
    obtain ⟨low, small, rest, whole⟩ := prefixed.first_byte
    have short := prefixed.length_le
    refine ⟨head ++ text.map (fold lowerCase), ?_, ?_, low, Nat.lt_of_lt_of_le small wide,
      rest ++ text.map (fold lowerCase), by rw [whole, List.cons_append], ?_⟩
    · rw [encodeStr, chosen]
      exact prefixed.appends.bind (appends_putBytes _)
    · rw [List.length_append, List.length_map]
      omega
    · have bytes := (reads_getBytes (text.map (fold lowerCase))).adaptExcept ofFault
      rw [List.length_map] at bytes
      apply prefixed.reads.bind
      apply bytes.bind_pure
      rw [decide_eq_false (mark.plain low small), decodeBytes, if_neg Bool.false_ne_true]
  · rw [if_neg long] at chosen
    obtain ⟨output, appends, size, after, decoded⟩ := huffman_round_trip lowerCase text
    obtain ⟨head, prefixed⟩ : ∃ head, Prefixed ((textSize lowerCase text + 7) / 8) (first ||| 1 <<< width) width head :=
      encodeInt_exists (by omega) mark.within mark.byte mark.clearMarked
    obtain ⟨low, small, rest, whole⟩ := prefixed.first_byte
    have short := prefixed.length_le
    have marker : 1 <<< width < 2 ^ (width + 1) := by
      rw [Nat.one_shiftLeft]
      exact Nat.pow_lt_pow_right (by decide) (Nat.lt_succ_self width)
    refine ⟨head ++ output, ?_, ?_, 1 <<< width ||| low, Nat.or_lt_two_pow marker (Nat.lt_of_lt_of_le small wide),
      rest ++ output, by rw [whole, List.cons_append, Nat.or_assoc], ?_⟩
    · rw [encodeStr, chosen]
      exact prefixed.appends.bind appends
    · rw [List.length_append]
      omega
    · have bytes := (reads_getBytes output).adaptExcept ofFault
      rw [size] at bytes
      rw [← Nat.or_assoc]
      apply prefixed.reads.bind
      apply bytes.bind_pure
      rw [decide_eq_true (mark.marked low small), decodeBytes, if_pos rfl, decoded]

theorem encodeStr_panics (lowerCase : Bool) (uncountable : ¬ textSize lowerCase text < 2 ^ 64) (first width : Nat) :
    encodeStr lowerCase text first width = throw .panic := by
  have chosen := huffmanEncodingLen_eq lowerCase text
  rw [if_neg uncountable] at chosen
  rw [encodeStr, chosen]

end Strings

end Quiche.H3.Qpack
