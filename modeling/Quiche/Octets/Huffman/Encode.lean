import Quiche.Octets.Huffman.Code

namespace Quiche.Octets

open Data

section Numbers

variable {pending nbits value code : Nat}

theorem shlU64_of_lt {count : Nat} (small : code < 2 ^ nbits) (within : nbits + count ≤ 64) :
    shlU64 code count = code * 2 ^ count := by
  have bound : code * 2 ^ count < 2 ^ 64 := by
    calc code * 2 ^ count < 2 ^ nbits * 2 ^ count := Nat.mul_lt_mul_of_pos_right small (Nat.two_pow_pos count)
      _ = 2 ^ (nbits + count) := (Nat.pow_add 2 nbits count).symm
      _ ≤ 2 ^ 64 := Nat.pow_le_pow_right (by decide) within
  rw [shlU64, Nat.shiftLeft_eq, Nat.mod_eq_of_lt bound]

theorem or_eq_add {low count : Nat} (value : Nat) (small : low < 2 ^ count) :
    value * 2 ^ count ||| low = value * 2 ^ count + low := by
  rw [Nat.mul_comm, Nat.two_pow_add_eq_or_of_lt small]

theorem or_shlU64 (small : code < 2 ^ nbits) (room : pending + nbits < 64) :
    value * 2 ^ (64 - pending) ||| shlU64 code (64 - (pending + nbits)) =
      (value * 2 ^ nbits + code) * 2 ^ (64 - (pending + nbits)) := by
  obtain ⟨left, whole⟩ : ∃ left, 64 = pending + nbits + left := ⟨64 - (pending + nbits), by omega⟩
  have first : 64 - pending = nbits + left := by omega
  have last : 64 - (pending + nbits) = left := by omega
  rw [first, last, shlU64_of_lt small (by omega), Nat.pow_add, ← Nat.mul_assoc, ← Nat.shiftLeft_eq,
    ← Nat.shiftLeft_eq code, ← Nat.shiftLeft_or_distrib, or_eq_add value small, Nat.shiftLeft_eq]

theorem or_shiftRight (small : code < 2 ^ nbits) (started : pending < 64) (full : 64 ≤ pending + nbits) :
    value * 2 ^ (64 - pending) ||| code >>> (pending + nbits - 64) =
      (value * 2 ^ nbits + code) / 2 ^ (pending + nbits - 64) := by
  obtain ⟨excess, width⟩ : ∃ excess, nbits = 64 - pending + excess := ⟨pending + nbits - 64, by omega⟩
  have rest : pending + nbits - 64 = excess := by omega
  have high : code / 2 ^ excess < 2 ^ (64 - pending) := by
    apply Nat.div_lt_of_lt_mul
    rwa [← Nat.pow_add, Nat.add_comm excess, ← width]
  rw [rest, Nat.shiftRight_eq_div_pow, or_eq_add value high, width, Nat.pow_add, ← Nat.mul_assoc,
    Nat.mul_comm _ (2 ^ excess), Nat.mul_add_div (Nat.two_pow_pos excess)]

theorem shlU64_rest (code : Nat) {rest : Nat} (few : rest < 64) :
    (if rest = 0 then 0 else shlU64 code (64 - rest)) = code % 2 ^ rest * 2 ^ (64 - rest) := by
  split
  · rename_i nothing
    rw [nothing, Nat.pow_zero, Nat.mod_one, Nat.zero_mul]
  · have whole : 2 ^ 64 = 2 ^ rest * 2 ^ (64 - rest) := by rw [← Nat.pow_add, Nat.add_sub_cancel' (Nat.le_of_lt few)]
    rw [shlU64, Nat.shiftLeft_eq, whole, Nat.mul_mod_mul_right]

theorem bitsOf_split (value : Nat) (small : code < 2 ^ nbits) (full : 64 ≤ pending + nbits) (started : pending < 64) :
    bitsOf 64 ((value * 2 ^ nbits + code) / 2 ^ (pending + nbits - 64)) ++
        bitsOf (pending + nbits - 64) (code % 2 ^ (pending + nbits - 64)) =
      bitsOf pending value ++ bitsOf nbits code := by
  obtain ⟨excess, width⟩ : ∃ excess, nbits = 64 - pending + excess := ⟨pending + nbits - 64, by omega⟩
  have rest : pending + nbits - 64 = excess := by omega
  have same : (value * 2 ^ nbits + code) % 2 ^ excess = code % 2 ^ excess := by
    rw [width, Nat.pow_add, ← Nat.mul_assoc, Nat.mul_comm _ (2 ^ excess), Nat.mul_add_mod]
  rw [← bitsOf_append small, rest, ← same, bitsOf_mod, ← bitsOf_add]
  congr 1
  omega

end Numbers

section Words

theorem encodeTable_fits : (encodeTable.all fun (nbits, code) => 0 < nbits && nbits ≤ 30 && code < 2 ^ nbits) = true := by
  decide +kernel

theorem encodeEntry_fits (byte : UInt8) :
    0 < (encodeEntry byte).1 ∧ (encodeEntry byte).1 ≤ 30 ∧ (encodeEntry byte).2 < 2 ^ (encodeEntry byte).1 := by
  have within : byte.toNat < encodeTable.length := encodeTable_length ▸ Nat.lt_succ_of_lt byte.toNat_lt
  have entry : encodeEntry byte = encodeTable[byte.toNat] := List.getD_eq_getElem _ _ within
  have fits := List.all_eq_true.mp encodeTable_fits _ (List.getElem_mem within)
  rw [← entry] at fits
  simpa [and_assoc] using fits

def textBits (lowerCase : Bool) (text : List UInt8) : List Bool :=
  text.flatMap fun byte => wordOf (encodeEntry (fold lowerCase byte))

/-- The number of bits of the words. -/
def textSize (lowerCase : Bool) (text : List UInt8) : Nat :=
  (text.map fun byte => (encodeEntry (fold lowerCase byte)).1).sum

theorem textBits_length (lowerCase : Bool) (text : List UInt8) :
    (textBits lowerCase text).length = textSize lowerCase text := by
  rw [textBits, textSize, List.length_flatMap]
  simp only [wordOf, bitsOf_length]

end Words

section Loop

variable {lowerCase : Bool} {value pending : Nat}

def topBits (value pending : Nat) : Nat := value * 2 ^ (64 - pending)

theorem appends_putHuffmanBits (text : List UInt8) (started : pending < 64) :
    ∃ output last left, Appends (putHuffmanBits lowerCase text (topBits value pending) pending) output
      (topBits last left, left) ∧
      left < 64 ∧ bytesBits output ++ bitsOf left last = bitsOf pending value ++ textBits lowerCase text := by
  induction text generalizing value pending with
  | nil => exact ⟨[], value, pending, emits_pure _, started, (List.append_nil _).symm⟩
  | cons byte rest ih =>
    obtain ⟨_, short, fits⟩ := encodeEntry_fits (fold lowerCase byte)
    rw [putHuffmanBits]
    generalize found : encodeEntry (fold lowerCase byte) = entry at short fits
    obtain ⟨nbits, code⟩ := entry
    have word : textBits lowerCase (byte :: rest) = bitsOf nbits code ++ textBits lowerCase rest := by
      rw [textBits, List.flatMap_cons, found]
      rfl
    by_cases room : pending + nbits < 64
    · obtain ⟨output, last, left, appends, few, bits⟩ := ih room
      refine ⟨output, last, left, ?_, few, ?_⟩
      · simp only [if_pos room]
        rw [topBits, or_shlU64 fits room]
        exact appends
      · rw [bits, word, bitsOf_append fits, List.append_assoc]
    · have full := Nat.not_lt.mp room
      have excess : pending + nbits - 64 < 64 := by omega
      obtain ⟨output, last, left, appends, few, bits⟩ := ih excess
      refine ⟨bigEndian 8 ((value * 2 ^ nbits + code) / 2 ^ (pending + nbits - 64)) ++ output, last, left, ?_, few, ?_⟩
      · simp only [if_neg room]
        rw [topBits, or_shiftRight fits started full, shlU64_rest code excess]
        exact (appends_putU 8 _).bind appends
      · rw [bytesBits_append, List.append_assoc, bits, bytesBits_bigEndian, ← List.append_assoc,
          bitsOf_split value fits full started, word, List.append_assoc]

end Loop

section Padding

variable {value pending : Nat}

theorem bigEndian_add (first second value : Nat) :
    bigEndian (first + second) value = bigEndian first (value / 256 ^ second) ++ bigEndian second value := by
  induction first with
  | zero => rw [Nat.zero_add, bigEndian, List.nil_append]
  | succ first ih =>
    rw [Nat.add_right_comm, bigEndian, bigEndian, ih, Nat.div_div_eq_div_mul, ← Nat.pow_add, Nat.add_comm first,
      List.cons_append]

theorem shiftRight_bytes (value count : Nat) : value >>> (8 * count) = value / 256 ^ count := by
  rw [Nat.shiftRight_eq_div_pow, Nat.pow_mul]

theorem appends_putLowBytes (value count : Nat) : Appends (putLowBytes value count) (bigEndian count value) () := by
  induction count with
  | zero => exact emits_pure ()
  | succ count ih =>
    rw [putLowBytes, shiftRight_bytes, Nat.add_comm, bigEndian_add]
    exact (appends_putU 1 _).bind ih

theorem ones_div (value first second : Nat) :
    (value * 2 ^ (first + second) + (2 ^ (first + second) - 1)) / 2 ^ second = value * 2 ^ first + (2 ^ first - 1) := by
  obtain ⟨high, highOne⟩ : ∃ high, 2 ^ first = high + 1 := Nat.exists_eq_add_one.mpr (Nat.two_pow_pos first)
  obtain ⟨low, lowOne⟩ : ∃ low, 2 ^ second = low + 1 := Nat.exists_eq_add_one.mpr (Nat.two_pow_pos second)
  have ones : (high + 1) * (low + 1) - 1 = (low + 1) * high + low := by
    rw [Nat.succ_mul, ← Nat.add_assoc, Nat.add_sub_cancel, Nat.mul_comm]
  have apart : value * ((high + 1) * (low + 1)) + ((low + 1) * high + low) =
      (low + 1) * (value * (high + 1) + high) + low := by
    ring
  rw [Nat.pow_add, highOne, lowOne, ones, apart, Nat.mul_add_div (Nat.succ_pos low),
    Nat.div_eq_of_lt (Nat.lt_succ_self low), Nat.add_zero, Nat.add_sub_cancel]

theorem topBits_padded {count pad : Nat} (width : 8 * count = pending + pad) (within : 8 * count ≤ 64) :
    (topBits value pending ||| (2 ^ 64 - 1) >>> pending) >>> (64 - 8 * count) = value * 2 ^ pad + (2 ^ pad - 1) := by
  obtain ⟨spare, whole⟩ : ∃ spare, 64 = 8 * count + spare := ⟨64 - 8 * count, by omega⟩
  have free : 64 - pending = pad + spare := by omega
  have ones : (2 ^ 64 - 1) >>> pending = 2 ^ (pad + spare) - 1 := by
    have divided := ones_div 0 (pad + spare) pending
    have total : pad + spare + pending = 64 := by omega
    rwa [Nat.zero_mul, Nat.zero_add, Nat.zero_mul, Nat.zero_add, total, ← Nat.shiftRight_eq_div_pow] at divided
  have last : 64 - 8 * count = spare := by omega
  rw [topBits, free, ones, or_eq_add value (Nat.sub_lt (Nat.two_pow_pos _) Nat.one_pos), last,
    Nat.shiftRight_eq_div_pow, ones_div]

theorem appends_putPending (started : pending < 64) :
    ∃ output pad, Appends (putPending (topBits value pending) pending) output () ∧ pad < 8 ∧
      bytesBits output = bitsOf pending value ++ .replicate pad true := by
  rw [putPending]
  split
  · rename_i nothing
    exact ⟨[], 0, emits_pure (), by decide, by rw [nothing]; rfl⟩
  · rename_i positive
    obtain ⟨count, rounded⟩ : ∃ count, count = (pending + 7) / 8 := ⟨_, rfl⟩
    obtain ⟨pad, width⟩ : ∃ pad, 8 * count = pending + pad := ⟨8 * count - pending, by omega⟩
    refine ⟨bigEndian count (value * 2 ^ pad + (2 ^ pad - 1)), pad, ?_, by omega, ?_⟩
    · simp only [← rounded, topBits_padded width (show 8 * count ≤ 64 by omega)]
      split
      · rename_i four
        have split := bigEndian_add 4 (count - 4) (value * 2 ^ pad + (2 ^ pad - 1))
        rw [Nat.add_sub_cancel' four] at split
        rw [split, shiftRight_bytes]
        exact (appends_putU 4 _).bind (appends_putLowBytes _ _)
      · exact appends_putLowBytes _ _
    · rw [bytesBits_bigEndian, width, bitsOf_append (Nat.sub_lt (Nat.two_pow_pos pad) Nat.one_pos), bitsOf_ones]

end Padding

section Strings

variable (lowerCase : Bool) (text : List UInt8)

theorem putHuffmanEncoded_exists : ∃ output pad, Appends (putHuffmanEncoded lowerCase text) output () ∧ pad < 8 ∧
      bytesBits output = textBits lowerCase text ++ .replicate pad true := by
  obtain ⟨front, last, left, loops, few, bits⟩ : ∃ output last left,
      Appends (putHuffmanBits lowerCase text (topBits 0 0) 0) output (topBits last left, left) ∧ left < 64 ∧
        bytesBits output ++ bitsOf left last = bitsOf 0 0 ++ textBits lowerCase text :=
    appends_putHuffmanBits text (by decide)
  obtain ⟨behind, pad, ends, padded, tail⟩ := appends_putPending few
  refine ⟨front ++ behind, pad, loops.bind ends, padded, ?_⟩
  rw [bytesBits_append, tail, ← List.append_assoc, bits]
  rfl

theorem huffman_round_trip :
    ∃ output, Appends (putHuffmanEncoded lowerCase text) output () ∧ output.length = (textSize lowerCase text + 7) / 8 ∧
      ∃ after, getHuffmanDecoded (withSlice output) = .ok (text.map (fold lowerCase)) after := by
  obtain ⟨output, pad, appends, few, bits⟩ := putHuffmanEncoded_exists lowerCase text
  have size := congrArg List.length bits
  rw [bytesBits_length, List.length_append, textBits_length, List.length_replicate] at size
  refine ⟨output, appends, by omega, getHuffmanDecoded_spec _ _ few ?_⟩
  rw [bits, textBits, List.flatMap_map]

theorem addU64_run (sizes : List Nat) (start : Nat) (bound : start < 2 ^ 64) :
    sizes.foldlM addU64 start = if start + sizes.sum < 2 ^ 64 then some (start + sizes.sum) else none := by
  induction sizes generalizing start with
  | nil => exact (if_pos bound).symm
  | cons size sizes ih =>
    rw [List.foldlM_cons, List.sum_cons, ← Nat.add_assoc, addU64]
    by_cases fits : start + size < 2 ^ 64
    · rw [if_pos fits]
      exact ih (start + size) fits
    · have more : ¬ start + size + sizes.sum < 2 ^ 64 := fun less => fits (by omega)
      rw [if_neg fits, if_neg more]
      rfl

theorem huffmanEncodingLen_eq : huffmanEncodingLen lowerCase text = if textSize lowerCase text < 2 ^ 64 then
        if (textSize lowerCase text + 7) / 8 > text.length then .error (.error .bufferTooShort)
        else .ok ((textSize lowerCase text + 7) / 8)
      else .error .panic := by
  have run := addU64_run (text.map fun byte => (encodeEntry (fold lowerCase byte)).1) 0 (by decide)
  rw [List.foldlM_map, Nat.zero_add, ← textSize] at run
  rw [huffmanEncodingLen, run]
  by_cases fits : textSize lowerCase text < 2 ^ 64
  · have rounded : (if textSize lowerCase text &&& 7 ≠ 0 then textSize lowerCase text / 8 + 1
        else textSize lowerCase text / 8) = (textSize lowerCase text + 7) / 8 := by
      rw [show (7 : Nat) = 2 ^ 3 - 1 from rfl, Nat.and_two_pow_sub_one_eq_mod]
      split <;> omega
    simp only [if_pos fits, rounded]
  · simp only [if_neg fits]

/-- The encoding is a text's words, padded with ones to whole bytes. It is written wherever it fits, its length is
announced where that is no longer than the text, and the text is decoded from it. -/
theorem huffman_exact (countable : textSize lowerCase text < 2 ^ 64) :
    ∃ output, output.length = (textSize lowerCase text + 7) / 8 ∧
      (∃ pad < 8, bytesBits output = textBits lowerCase text ++ .replicate pad true) ∧
      (∀ octets, (∃ after, putHuffmanEncoded lowerCase text octets = .ok () after) ↔ output.length ≤ octets.cap) ∧
      (∀ octets, output.length ≤ octets.cap → putHuffmanEncoded lowerCase text octets = .ok () (octets.append output) ∧
          (octets.append output).cap + output.length = octets.cap) ∧ (huffmanEncodingLen lowerCase text =
        if output.length ≤ text.length then .ok output.length else .error (.error .bufferTooShort)) ∧
      ∃ after, getHuffmanDecoded (withSlice output) = .ok (text.map (fold lowerCase)) after := by
  obtain ⟨output, pad, appends, few, bits⟩ := putHuffmanEncoded_exists lowerCase text
  have size := congrArg List.length bits
  rw [bytesBits_length, List.length_append, textBits_length, List.length_replicate] at size
  have length : output.length = (textSize lowerCase text + 7) / 8 := by omega
  refine ⟨output, length, ⟨pad, few, bits⟩, ?_, ?_, ?_, ?_⟩
  · intro octets
    constructor
    · rintro ⟨after, written⟩
      by_contra less
      obtain ⟨_, failed⟩ := appends.spends.short octets (Nat.not_le.mp less)
      cases written.symm.trans failed
    · exact fun enough => ⟨_, appends.writes octets enough⟩
  · exact fun octets enough => ⟨appends.writes octets enough, tape.room_append output octets enough⟩
  · rw [huffmanEncodingLen_eq, if_pos countable, ← length]
    by_cases short : output.length ≤ text.length
    · rw [if_pos short, if_neg (Nat.not_lt.mpr short)]
    · rw [if_neg short, if_pos (Nat.not_le.mp short)]
  · refine getHuffmanDecoded_spec _ _ few ?_
    rw [bits, textBits, List.flatMap_map]

/-- The words of `Www.Example.Com` and a line feed, folded to lower case, have 119 bits. -/
theorem huffman_exact_host : ∃ output, output.length = 15 ∧ (∃ pad < 8, bytesBits output =
        textBits true [87, 119, 119, 46, 69, 120, 97, 109, 112, 108, 101, 46, 67, 111, 109, 10] ++ .replicate pad true) ∧
      huffmanEncodingLen true [87, 119, 119, 46, 69, 120, 97, 109, 112, 108, 101, 46, 67, 111, 109, 10] = .ok 15 ∧
      ∃ after, getHuffmanDecoded (withSlice output) =
        .ok [119, 119, 119, 46, 101, 120, 97, 109, 112, 108, 101, 46, 99, 111, 109, 10] after := by
  have size : textSize true [87, 119, 119, 46, 69, 120, 97, 109, 112, 108, 101, 46, 67, 111, 109, 10] = 119 := by
    decide +kernel
  obtain ⟨output, length, padded, _, _, announced, decoded⟩ :=
    huffman_exact true [87, 119, 119, 46, 69, 120, 97, 109, 112, 108, 101, 46, 67, 111, 109, 10] (by rw [size]; decide)
  rw [size] at length
  rw [length] at announced
  exact ⟨output, length, padded, announced, decoded⟩

end Strings

end Quiche.Octets
