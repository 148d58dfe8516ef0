import Mathlib.Data.List.Forall2
import Quiche.Data.Bits
import Quiche.Data.CodeTree
import Quiche.Octets.Huffman
import Quiche.Octets.Wire

namespace Quiche.Octets

open Data CodeTree

/-! Both tables describe one code: the states of the decoder are the inner nodes of its tree. -/

section Tables

def wordOf (entry : Nat × Nat) : List Bool := bitsOf entry.1 entry.2

/-- The symbol behind those of the bytes, which no text contains. -/
def endOfString : Nat := 256

def huffmanTree : CodeTree Nat Nat :=
  match ofCode 30 0 (encodeTable.zipIdx.map fun (entry, symbol) => (wordOf entry, symbol)) with
  | some (tree, _) => tree
  | none => .leaf endOfString

def stateOf : CodeTree Nat Nat → Nat
  | .leaf _ => 0
  | .node state _ _ => state

def readFrom (node : CodeTree Nat Nat) (bits : List Bool) : List Nat × CodeTree Nat Nat := decode huffmanTree node bits

def paddedStates : List Nat := [22, 40, 56, 64, 68, 72, 74]

def agrees (node : CodeTree Nat Nat) (entry : Nat × Nat × Nat) (data : Nat) : Bool :=
  match readFrom node (bitsOf 4 data), entry with
  | ([], next), (state, _, flags) => flags &&& (flagSym ||| flagErr) == 0 && state == stateOf next
  | ([symbol], next), (state, sym, flags) =>
    symbol == endOfString || flags &&& (flagSym ||| flagErr) == flagSym && symbol == sym && state == stateOf next
  | _, _ => false

def marksPadding : Nat × Nat × Nat → Bool := fun (state, _, flags) =>
  !paddedStates.contains state || flags &&& flagEnd == flagEnd

def wordsAgree : Bool := encodeTable.zipIdx.all fun (entry, symbol) =>
  let (symbols, next) := readFrom huffmanTree (wordOf entry)
  symbols == [symbol] && stateOf next == 0

def rowsAgree : Bool := huffmanTree.inner.all₂ (fun node row =>
  row.length == 16 && row.zipIdx.all fun (entry, data) => agrees node entry data) decodeTable

def paddingAgrees : Bool := (List.range 8).all fun count =>
  let (symbols, next) := readFrom huffmanTree (.replicate count true)
  symbols == [] && (stateOf next == 0 || paddedStates.contains (stateOf next))

theorem tables_agree : (huffmanTree.inner.map stateOf == List.range 256 && wordsAgree && rowsAgree && paddingAgrees) =
    true := by
  decide +kernel

theorem decodeTable_padded : (decodeTable.all fun row => row.all marksPadding) = true := by
  decide +kernel

theorem states_eq : huffmanTree.inner.map stateOf = List.range 256 := by
  have checked := tables_agree
  simp only [Bool.and_eq_true, beq_iff_eq] at checked
  exact checked.1.1.1

variable {node other : CodeTree Nat Nat}

theorem inner_stateOf (member : node ∈ huffmanTree.inner) : huffmanTree.inner[stateOf node]? = some node := by
  obtain ⟨place, found⟩ := List.mem_iff_getElem?.mp member
  have numbered := congrArg (·[place]?) states_eq
  obtain ⟨within, _⟩ := List.getElem?_eq_some_iff.mp found
  have counted := congrArg List.length states_eq
  rw [List.length_map, List.length_range] at counted
  simp only [List.getElem?_map, found, Option.map_some, List.getElem?_range (counted ▸ within)] at numbered
  rw [Option.some.inj numbered, found]

theorem stateOf_inj (member : node ∈ huffmanTree.inner) (otherMember : other ∈ huffmanTree.inner)
    (same : stateOf node = stateOf other) : node = other := by
  have found := inner_stateOf member
  rw [same, inner_stateOf otherMember] at found
  exact (Option.some.inj found).symm

theorem root_of_states {root : CodeTree Nat Nat} {count : Nat}
    (numbered : root.inner.map stateOf = List.range (count + 1)) : root ∈ root.inner ∧ stateOf root = 0 := by
  cases root with
  | leaf symbol =>
    rw [List.range_succ_eq_map] at numbered
    contradiction
  | node state zero one =>
    rw [CodeTree.inner, List.map_cons, List.range_succ_eq_map] at numbered
    exact ⟨self_mem_inner state zero one, (List.cons.inj numbered).1⟩

theorem root_inner : huffmanTree ∈ huffmanTree.inner ∧ stateOf huffmanTree = 0 := root_of_states states_eq

theorem readFrom_inner (member : node ∈ huffmanTree.inner) (bits : List Bool) :
    (readFrom node bits).2 ∈ huffmanTree.inner := decode_inner root_inner.1 member bits

theorem row_exists (member : node ∈ huffmanTree.inner) :
    ∃ row, decodeTable[stateOf node]? = some row ∧ row.length = 16 ∧ row ∈ decodeTable ∧
      ∀ data entry, row[data]? = some entry → agrees node entry data = true := by
  have checked := tables_agree
  simp only [Bool.and_eq_true] at checked
  have rows := (List.all₂_eq_true _ _).mp checked.1.2
  obtain ⟨within, found⟩ := List.getElem?_eq_some_iff.mp (inner_stateOf member)
  have inTable := rows.length_eq ▸ within
  have pair := rows.get within inTable
  simp only [List.get_eq_getElem, found, Bool.and_eq_true, beq_iff_eq, List.all_eq_true] at pair
  refine ⟨_, List.getElem?_eq_getElem inTable, pair.1, List.getElem_mem inTable, fun data entry there => ?_⟩
  exact pair.2 (entry, data) (List.mem_zipIdx_iff_getElem?.mpr there)

theorem encodeTable_length : encodeTable.length = 257 := by decide +kernel

theorem words_read (byte : UInt8) : readFrom huffmanTree (wordOf (encodeEntry byte)) = ([byte.toNat], huffmanTree) := by
  have checked := tables_agree
  simp only [Bool.and_eq_true] at checked
  have words := List.all_eq_true.mp checked.1.1.2
  have within : byte.toNat < encodeTable.length := encodeTable_length ▸ Nat.lt_succ_of_lt byte.toNat_lt
  have pair := words (encodeTable[byte.toNat], byte.toNat)
    (List.mem_zipIdx_iff_getElem?.mpr (List.getElem?_eq_getElem within))
  have entry : encodeEntry byte = encodeTable[byte.toNat] := List.getD_eq_getElem _ _ within
  simp only [← entry, Bool.and_eq_true, beq_iff_eq] at pair
  obtain ⟨root, zero⟩ := root_inner
  have last := stateOf_inj (readFrom_inner root _) root (pair.2.trans zero.symm)
  exact Prod.ext pair.1 last

theorem padding_read {count : Nat} (few : count < 8) : (readFrom huffmanTree (.replicate count true)).1 = [] ∧
      (stateOf (readFrom huffmanTree (.replicate count true)).2 = 0 ∨
        stateOf (readFrom huffmanTree (.replicate count true)).2 ∈ paddedStates) := by
  have checked := tables_agree
  simp only [Bool.and_eq_true] at checked
  have paddings := List.all_eq_true.mp checked.2 count (List.mem_range.mpr few)
  simpa using paddings

end Tables

section Follow

/-- The decoder stands at the node of the code tree, with the symbols decoded so far. -/
structure Follows (decoder : HuffmanDecoder) (symbols : List Nat) (node : CodeTree Nat Nat) : Prop where
  out : decoder.out = symbols.map UInt8.ofNat
  state : decoder.state = stateOf node
  member : node ∈ huffmanTree.inner
  padded : decoder.state ∈ paddedStates → decoder.eos = true

variable {decoder : HuffmanDecoder} {symbols : List Nat} {node : CodeTree Nat Nat} {data : Nat}

theorem Follows.step (follows : Follows decoder symbols node) (bits : List Bool) (next : HuffmanDecoder)
    (out : next.out = decoder.out ++ (readFrom node bits).1.map UInt8.ofNat)
    (state : next.state = stateOf (readFrom node bits).2) (padded : next.state ∈ paddedStates → next.eos = true) :
    Follows next (symbols ++ (readFrom node bits).1) (readFrom node bits).2 where
  out := by rw [out, follows.out, List.map_append]
  state := state
  member := readFrom_inner follows.member bits
  padded := padded

theorem flags_cases (symbol : Bool) {flags : Nat}
    (same : flags &&& (flagSym ||| flagErr) = bif symbol then flagSym else 0) :
    flags &&& flagErr ≠ flagErr ∧ (flags &&& flagSym = flagSym ↔ symbol = true) := by
  have err : flags &&& flagErr = (flags &&& (flagSym ||| flagErr)) &&& flagErr := by
    rw [Nat.and_assoc]
    rfl
  have sym : flags &&& flagSym = (flags &&& (flagSym ||| flagErr)) &&& flagSym := by
    rw [Nat.and_assoc]
    rfl
  rw [err, sym, same]
  cases symbol with
  | false => decide
  | true => decide

theorem decodeHalf_follows (follows : Follows decoder symbols node) (half : data < 16)
    (inside : endOfString ∉ (readFrom node (bitsOf 4 data)).1) : ∃ next, decodeHalf decoder data = pure next ∧
      Follows next (symbols ++ (readFrom node (bitsOf 4 data)).1) (readFrom node (bitsOf 4 data)).2 := by
  obtain ⟨row, found, width, member, every⟩ := row_exists follows.member
  obtain ⟨⟨state, sym, flags⟩, there⟩ : ∃ entry, row[data]? = some entry :=
    ⟨_, List.getElem?_eq_getElem (width.symm ▸ half)⟩
  have agreed := every data _ there
  have marked : state ∈ paddedStates → flags &&& flagEnd = flagEnd := by
    have rows := List.all_eq_true.mp decodeTable_padded row member
    have entry := List.all_eq_true.mp rows _ (List.mem_of_getElem? there)
    simpa [marksPadding, imp_iff_not_or] using entry
  rw [decodeHalf, follows.state, found, Option.bind_some, there]
  rw [agrees.eq_def] at agreed
  cases read : readFrom node (bitsOf 4 data) with
  | mk more last =>
    have whole := follows.step (bitsOf 4 data)
    rw [read] at agreed inside whole
    cases more with
    | nil =>
      simp only [Bool.and_eq_true, beq_iff_eq] at agreed
      obtain ⟨noError, noSymbol⟩ := flags_cases false agreed.1
      refine ⟨⟨state, flags &&& flagEnd = flagEnd, decoder.out⟩, ?_, ?_⟩
      · simp only [if_neg noError, if_neg (fun is => Bool.false_ne_true (noSymbol.mp is))]
      · exact whole _ (by simp) agreed.2 fun padded => decide_eq_true (marked padded)
    | cons symbol more =>
      cases more with
      | cons _ _ => contradiction
      | nil =>
        have other : symbol ≠ endOfString := fun same => inside (same ▸ List.mem_cons_self)
        simp only [Bool.or_eq_true, Bool.and_eq_true, beq_iff_eq, other, false_or] at agreed
        obtain ⟨noError, isSymbol⟩ := flags_cases true agreed.1.1
        refine ⟨⟨state, flags &&& flagEnd = flagEnd, decoder.out ++ [UInt8.ofNat sym]⟩, ?_, ?_⟩
        · simp only [if_neg noError, if_pos (isSymbol.mpr rfl)]
        · exact whole _ (by simp [agreed.1.2]) agreed.2 fun padded => decide_eq_true (marked padded)

theorem bits_of_byte (byte : UInt8) :
    bitsOf 8 byte.toNat = bitsOf 4 (byte.toNat >>> 4) ++ bitsOf 4 (byte.toNat &&& 0xf) := by
  rw [Nat.shiftRight_eq_div_pow, show (0xf : Nat) = 2 ^ 4 - 1 from rfl, Nat.and_two_pow_sub_one_eq_mod, bitsOf_mod]
  exact bitsOf_add 4 4 byte.toNat

theorem readFrom_append (node : CodeTree Nat Nat) (first second : List Bool) :
    readFrom node (first ++ second) = ((readFrom node first).1 ++ (readFrom (readFrom node first).2 second).1,
      (readFrom (readFrom node first).2 second).2) := decode_append huffmanTree node first second

theorem decodeByte_follows (follows : Follows decoder symbols node) (byte : UInt8)
    (inside : endOfString ∉ (readFrom node (bitsOf 8 byte.toNat)).1) :
    ∃ next, decodeByte decoder byte.toNat = pure next ∧
      Follows next (symbols ++ (readFrom node (bitsOf 8 byte.toNat)).1) (readFrom node (bitsOf 8 byte.toNat)).2 := by
  rw [bits_of_byte, readFrom_append] at inside ⊢
  obtain ⟨insideHigh, insideLow⟩ := not_or.mp fun either => inside (List.mem_append.mpr either)
  have high : byte.toNat >>> 4 < 16 := by
    rw [Nat.shiftRight_eq_div_pow]
    exact Nat.div_lt_of_lt_mul byte.toNat_lt
  have low : byte.toNat &&& 0xf < 16 := Nat.lt_of_le_of_lt Nat.and_le_right (by decide)
  obtain ⟨middle, first, followsMiddle⟩ := decodeHalf_follows follows high insideHigh
  obtain ⟨next, second, followsNext⟩ := decodeHalf_follows followsMiddle low insideLow
  refine ⟨next, ?_, List.append_assoc _ _ _ ▸ followsNext⟩
  rw [decodeByte, first, pure_bind, second]

theorem reads_decodeBytes (follows : Follows decoder symbols node) (bytes : List UInt8)
    (inside : endOfString ∉ (readFrom node (bytesBits bytes)).1) :
    ∃ next, Reads cursor (decodeBytes bytes.length decoder) bytes next ∧
      Follows next (symbols ++ (readFrom node (bytesBits bytes)).1) (readFrom node (bytesBits bytes)).2 := by
  induction bytes generalizing decoder symbols node with
  | nil => exact ⟨decoder, reads_pure decoder, (List.append_nil symbols).symm ▸ follows⟩
  | cons byte rest ih =>
    rw [bytesBits, List.flatMap_cons, ← bytesBits, readFrom_append] at inside ⊢
    obtain ⟨insideByte, insideRest⟩ := not_or.mp fun either => inside (List.mem_append.mpr either)
    obtain ⟨middle, decoded, followsMiddle⟩ := decodeByte_follows follows byte insideByte
    obtain ⟨next, reads, followsNext⟩ := ih followsMiddle insideRest
    have first : Reads cursor getU8 [byte] byte.toNat := by
      have read : Reads cursor (getU 1) (bigEndian 1 byte.toNat) byte.toNat := reads_getU_of_lt byte.toNat_lt
      have single : bigEndian 1 byte.toNat = [byte] := by simp [bigEndian]
      exact single ▸ read
    refine ⟨next, ?_, List.append_assoc _ _ _ ▸ followsNext⟩
    have others : Reads cursor (decodeByte decoder byte.toNat >>= decodeBytes rest.length) rest next := by
      rw [decoded, pure_bind]
      exact reads
    exact first.bind others

theorem getHuffmanDecoded_spec (text bytes : List UInt8) {count : Nat} (few : count < 8)
    (words : bytesBits bytes = (text.flatMap fun byte => wordOf (encodeEntry byte)) ++ .replicate count true) :
    ∃ after, getHuffmanDecoded (withSlice bytes) = .ok text after := by
  obtain ⟨root, start⟩ := root_inner
  obtain ⟨silent, padded⟩ := padding_read few
  have read : readFrom huffmanTree (bytesBits bytes) =
      (text.map UInt8.toNat, (readFrom huffmanTree (.replicate count true)).2) := by
    have decoded := decode_words (fun byte (_ : byte ∈ text) => words_read byte) (.replicate count true)
    rw [words]
    exact decoded.trans (by rw [← readFrom, silent, List.append_nil])
  have inside : endOfString ∉ (readFrom huffmanTree (bytesBits bytes)).1 := by
    rw [read]
    intro member
    obtain ⟨byte, _, same⟩ := List.mem_map.mp member
    exact Nat.ne_of_lt byte.toNat_lt same
  have initial : Follows ⟨0, false, []⟩ [] huffmanTree := ⟨rfl, start.symm, root, by decide⟩
  obtain ⟨last, reads, follows⟩ := reads_decodeBytes initial bytes inside
  rw [read, List.nil_append] at follows
  have out : last.out = text := by
    rw [follows.out, List.map_map]
    exact List.map_id'' (fun byte => UInt8.ofNat_toNat) text
  have ended : ¬ (last.state ≠ 0 ∧ ¬ last.eos) := by
    rintro ⟨unfinished, unmarked⟩
    rcases padded with zero | member
    · exact unfinished (follows.state.trans zero)
    · exact unmarked (follows.padded (follows.state ▸ member))
  have front : (withSlice bytes).rest = bytes ++ [] := by rw [rest, withSlice, List.drop_zero, List.append_nil]
  have ran := reads (withSlice bytes) [] front
  refine ⟨advance bytes.length (withSlice bytes), ?_⟩
  show EStateM.bind (decodeBytes bytes.length _) _ (withSlice bytes) = _
  simp only [EStateM.bind, ran, if_neg ended, out]
  rfl

end Follow

end Quiche.Octets
