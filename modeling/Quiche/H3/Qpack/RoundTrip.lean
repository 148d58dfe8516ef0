import Quiche.H3.Qpack.Strings

namespace Quiche.H3.Qpack

open Data Octets

section StaticTable

variable {h : Header} {idx : Nat} {whole : Bool}

theorem staticTables_match : ∀ row ∈ staticEncodeTable, ∀ entry ∈ row, ∀ pair ∈ entry.2,
    staticDecodeTable[pair.2]? = some (entry.1, pair.1) := by
  simp only [staticEncodeTable, List.forall_mem_cons]
  and_intros <;> first | rfl | exact List.forall_mem_nil _

theorem staticEncodeTable_lengths :
    (staticEncodeTable.zipIdx.all fun (row, length) => row.all fun entry => (bytes entry.1).length == length) = true := by
  decide +kernel

theorem cmpLowercase_eq {name header : List UInt8} (same : name.length = header.length)
    (equal : cmpLowercase name header = true) : name = header.map toAsciiLowercase := by
  induction name generalizing header with
  | nil => rw [List.eq_nil_of_length_eq_zero same.symm, List.map_nil]
  | cons byte rest ih =>
    cases header with
    | nil => contradiction
    | cons other others =>
      simp only [cmpLowercase, List.zip_cons_cons, List.all_cons, Bool.and_eq_true, beq_iff_eq] at equal
      rw [List.map_cons, equal.1, ih (Nat.succ.inj same) equal.2]

def lowered (h : Header) : Header := ⟨h.name.map toAsciiLowercase, h.value⟩

/-- The entry of the static table has the name of the header, and its value if `whole`. -/
def Stands (h : Header) (idx : Nat) (whole : Bool) : Prop :=
  ∃ name value, staticDecodeTable[idx]? = some (name, value) ∧ bytes name = (lowered h).name ∧
    (whole = true → bytes value = h.value)

theorem lookupValue_stands {name : String} {values : ValueEncPairs} {found : Option (Nat × Bool)}
    (named : bytes name = (lowered h).name) (known : ∀ pair ∈ values, staticDecodeTable[pair.2]? = some (name, pair.1))
    (lookup : lookupValue h.value values = some found) : ∃ idx whole, found = some (idx, whole) ∧ Stands h idx whole := by
  induction values with
  | nil => contradiction
  | cons pair rest ih =>
    obtain ⟨value, enc⟩ := pair
    obtain ⟨entry, others⟩ := List.forall_mem_cons.mp known
    rw [lookupValue] at lookup
    split at lookup
    · exact ⟨enc, false, (Option.some.inj lookup).symm, name, value, entry, named, fun no => absurd no Bool.false_ne_true⟩
    · split at lookup
      · rename_i same
        exact ⟨enc, true, (Option.some.inj lookup).symm, name, value, entry, named, fun _ => same.symm⟩
      · exact ih others lookup

theorem lookupName_stands {row : List (String × ValueEncPairs)}
    (lengths : ∀ entry ∈ row, (bytes entry.1).length = h.name.length)
    (known : ∀ entry ∈ row, ∀ pair ∈ entry.2, staticDecodeTable[pair.2]? = some (entry.1, pair.1))
    (lookup : lookupName h row = some (idx, whole)) : Stands h idx whole := by
  induction row with
  | nil => contradiction
  | cons entry rest ih =>
    obtain ⟨name, values⟩ := entry
    obtain ⟨length, otherLengths⟩ := List.forall_mem_cons.mp lengths
    obtain ⟨pairs, otherPairs⟩ := List.forall_mem_cons.mp known
    rw [lookupName] at lookup
    split at lookup
    · rename_i equal
      have named := cmpLowercase_eq length equal
      cases value : lookupValue h.value values with
      | some found =>
        obtain ⟨place, complete, same, stands⟩ := lookupValue_stands named pairs value
        rw [value] at lookup
        cases same.symm.trans lookup
        exact stands
      | none =>
        rw [value] at lookup
        obtain ⟨first, head, same⟩ := Option.map_eq_some_iff.mp lookup
        cases same
        exact ⟨name, first.1, pairs first (List.mem_of_head? head), named, fun no => absurd no Bool.false_ne_true⟩
    · exact ih otherLengths otherPairs lookup

theorem lookupStatic_stands (lookup : lookupStatic h = some (idx, whole)) : Stands h idx whole := by
  obtain ⟨row, found, lookup⟩ := Option.bind_eq_some_iff.mp lookup
  have member := List.mem_of_getElem? found
  refine lookupName_stands ?_ (staticTables_match row member) lookup
  intro entry inside
  have place : (row, h.name.length) ∈ staticEncodeTable.zipIdx := List.mem_zipIdx_iff_getElem?.mpr found
  have rows := List.all_eq_true.mp staticEncodeTable_lengths _ place
  exact beq_iff_eq.mp (List.all_eq_true.mp rows entry inside)

theorem Stands.lt (stands : Stands h idx whole) : idx < 99 := by
  obtain ⟨_, _, entry, _⟩ := stands
  exact (List.getElem?_eq_some_iff.mp entry).1

end StaticTable

section Header

variable {h : Header}

/-- The output is the encoding of the header, and it decodes to the header with a lowered name. -/
structure Coded (h : Header) (output : List UInt8) : Prop where
  appends : Appends (encodeHeader h) output ()
  length_le : output.length ≤ h.name.length + h.value.length + 22
  nonempty : 0 < output.length
  reads : Reads cursor decodeHeader output (lowered h)

theorem fold_false (text : List UInt8) : text.map (fold false) = text := List.map_id'' (fun _ => rfl) text

theorem reads_decodeStr {text output : List UInt8} (spelled : Spelled false text 0 7 output) :
    Reads cursor decodeStr output text := by
  obtain ⟨low, _, rest, whole, reads⟩ := spelled.reads
  rw [fold_false, whole] at reads
  rw [whole]
  exact reads_peek reads

theorem lookupStaticIndex_eq {idx : Nat} {name value : String} (entry : staticDecodeTable[idx]? = some (name, value)) :
    lookupStaticIndex idx = pure ⟨bytes name, bytes value⟩ := by
  rw [lookupStaticIndex, entry]

theorem indexed_byte : ∀ low < 2 ^ 6,
    Representation.fromByte (UInt8.ofNat (indexed ||| 0x40 ||| low)).toNat = .indexed ∧
      (UInt8.ofNat (indexed ||| 0x40 ||| low)).toNat &&& 0x40 = 0x40 := by
  decide

theorem nameRef_byte : ∀ low < 2 ^ 4,
    Representation.fromByte (UInt8.ofNat (literalWithNameRef ||| 0x10 ||| low)).toNat = .literalWithNameRef ∧
      (UInt8.ofNat (literalWithNameRef ||| 0x10 ||| low)).toNat &&& 0x10 = 0x10 := by
  decide

theorem literal_byte : ∀ low < 2 ^ 4, Representation.fromByte (UInt8.ofNat (literal ||| low)).toNat = .literal := by
  decide

theorem coded_indexed {idx : Nat} (lookup : lookupStatic h = some (idx, true)) : ∃ output, Coded h output := by
  obtain ⟨name, value, entry, named, valued⟩ := lookupStatic_stands lookup
  have small : idx < 2 ^ 64 := Nat.lt_trans (lookupStatic_stands lookup).lt (by decide)
  obtain ⟨output, prefixed⟩ : ∃ output, Prefixed idx (indexed ||| 0x40) 6 output :=
    encodeInt_exists small (by decide) (by decide) (by decide)
  obtain ⟨low, fits, rest, whole⟩ := prefixed.first_byte
  obtain ⟨kind, static⟩ := indexed_byte low fits
  have length := prefixed.length_le
  refine ⟨output, ?_, by omega, by simp [whole], ?_⟩
  · rw [encodeHeader, lookup]
    exact prefixed.appends
  · have reads := prefixed.reads
    rw [whole] at reads ⊢
    apply reads_peek
    simp only [kind, if_pos static]
    apply reads.bind_pure
    rw [lookupStaticIndex_eq entry, named, valued rfl]
    rfl

theorem coded_nameRef {idx : Nat} (lookup : lookupStatic h = some (idx, false))
    (countable : textSize false h.value < 2 ^ 64) : ∃ output, Coded h output := by
  obtain ⟨name, value, entry, named, _⟩ := lookupStatic_stands lookup
  have small : idx < 2 ^ 64 := Nat.lt_trans (lookupStatic_stands lookup).lt (by decide)
  obtain ⟨head, prefixed⟩ : ∃ output, Prefixed idx (literalWithNameRef ||| 0x10) 4 output :=
    encodeInt_exists small (by decide) (by decide) (by decide)
  obtain ⟨text, spelled⟩ := encodeStr_exists valuePrefix false countable
  obtain ⟨low, fits, rest, whole⟩ := prefixed.first_byte
  obtain ⟨kind, static⟩ := nameRef_byte low fits
  have headLength := prefixed.length_le
  have textLength := spelled.length_le
  refine ⟨head ++ text, ?_, ?_, by simp [whole], ?_⟩
  · rw [encodeHeader, lookup]
    exact prefixed.appends.bind spelled.appends
  · rw [List.length_append]
    omega
  · have reads := prefixed.reads
    rw [whole] at reads ⊢
    apply reads_peek
    simp only [kind, if_pos static]
    apply reads.bind
    apply (reads_decodeStr spelled).bind_pure
    rw [lookupStaticIndex_eq entry, pure_bind, named]
    rfl

theorem coded_literal (lookup : lookupStatic h = none) (countableName : textSize true h.name < 2 ^ 64)
    (countable : textSize false h.value < 2 ^ 64) : ∃ output, Coded h output := by
  obtain ⟨head, named⟩ := encodeStr_exists namePrefix true countableName
  obtain ⟨text, spelled⟩ := encodeStr_exists valuePrefix false countable
  obtain ⟨low, fits, rest, whole, readsName⟩ := named.reads
  have kind := literal_byte low fits
  have headLength := named.length_le
  have textLength := spelled.length_le
  refine ⟨head ++ text, ?_, ?_, by simp [whole], ?_⟩
  · rw [encodeHeader, lookup]
    exact named.appends.bind spelled.appends
  · rw [List.length_append]
    omega
  · rw [whole] at readsName ⊢
    have rest : Reads cursor (do
        let name ← decodeText (UInt8.ofNat (literal ||| low)).toNat 3
        let value ← decodeStr
        return (⟨name, value⟩ : Header)) (UInt8.ofNat (literal ||| low) :: rest ++ text) (lowered h) := by
      apply readsName.bind
      apply (reads_decodeStr spelled).bind_pure
      rfl
    apply reads_peek
    simp only [kind]
    simp only [decodeText, bind_assoc] at rest
    exact rest

/-- The sizes of the texts that are coded fit into 64 bits. -/
def Countable (h : Header) : Prop :=
  match lookupStatic h with
  | some (_, true) => True
  | some (_, false) => textSize false h.value < 2 ^ 64
  | none => textSize true h.name < 2 ^ 64 ∧ textSize false h.value < 2 ^ 64

theorem coded_exists (countable : Countable h) : ∃ output, Coded h output := by
  rw [Countable] at countable
  cases lookup : lookupStatic h with
  | none =>
    rw [lookup] at countable
    exact coded_literal lookup countable.1 countable.2
  | some found =>
    obtain ⟨idx, whole⟩ := found
    rw [lookup] at countable
    cases whole with
    | true => exact coded_indexed lookup
    | false => exact coded_nameRef lookup countable

theorem encodeHeader_fails (uncountable : ¬ Countable h) : Fails (encodeHeader h) := by
  rw [Countable] at uncountable
  rw [encodeHeader]
  cases lookup : lookupStatic h with
  | none =>
    rw [lookup] at uncountable
    by_cases name : textSize true h.name < 2 ^ 64
    · have value : ¬ textSize false h.value < 2 ^ 64 := fun value => uncountable ⟨name, value⟩
      simp only [encodeStr_panics false value]
      exact Fails.after (fun _ => fails_throw _) _
    · simp only [encodeStr_panics true name]
      exact (fails_throw _).bind _
  | some found =>
    obtain ⟨idx, whole⟩ := found
    rw [lookup] at uncountable
    cases whole with
    | true => exact absurd trivial uncountable
    | false =>
      simp only [encodeStr_panics false uncountable]
      exact Fails.after (fun _ => fails_throw _) _

end Header

section Lists

variable {headers : List Header} {output : List UInt8}

def sizeOf (h : Header) : Nat := h.name.length + h.value.length

/-- The output decodes to the headers in order, or to an error when they exceed the limit. -/
def Decodes (headers : List Header) (output : List UInt8) : Prop :=
  ∀ turns left out state, state.rest = output → output.length ≤ turns → ∃ after, decodeHeaders turns left out state =
      if (headers.map sizeOf).sum ≤ left then .ok (out ++ headers.map lowered) after
      else .error (.error .headerListTooLarge) after

theorem decodes_nil : Decodes [] [] := by
  intro turns left out state front enough
  refine ⟨state, ?_⟩
  have empty : ¬ state.cap > 0 := by
    rw [← rest_length, front]
    decide
  rw [List.map_nil, List.sum_nil, if_pos (Nat.zero_le left), List.map_nil, List.append_nil]
  cases turns with
  | zero => rfl
  | succ turns => exact congrFun (if_neg empty) state

theorem Coded.decodes {h : Header} {first : List UInt8} (coded : Coded h first) (decodes : Decodes headers output) :
    Decodes (h :: headers) (first ++ output) := by
  intro turns left out state front enough
  have positive := coded.nonempty
  rw [List.length_append] at enough
  cases turns with
  | zero => omega
  | succ turns =>
    have more : state.cap > 0 := by
      rw [← rest_length, front, List.length_append]
      omega
    have size : (lowered h).name.length + (lowered h).value.length = sizeOf h := by
      simp only [lowered, List.length_map, sizeOf]
    obtain ⟨run, rest⟩ := coded.reads.run front
    rw [decodeHeaders, get_bind, if_pos more, run, size, List.map_cons, List.sum_cons, List.map_cons]
    by_cases fits : sizeOf h ≤ left
    · obtain ⟨after, decoded⟩ := decodes turns (left - sizeOf h) (out ++ [lowered h]) _ rest (by omega)
      have same : (headers.map sizeOf).sum ≤ left - sizeOf h ↔ sizeOf h + (headers.map sizeOf).sum ≤ left := by omega
      simp only [same, List.append_assoc, List.singleton_append] at decoded
      refine ⟨after, ?_⟩
      rw [subChecked_of_le fits]
      exact decoded
    · have exceeds : ¬ sizeOf h + (headers.map sizeOf).sum ≤ left := by omega
      refine ⟨cursor.advance first.length state, ?_⟩
      rw [subChecked, if_neg fits, if_neg exceeds]
      rfl

/-- The output is the encodings of the headers in order, and it decodes to them. -/
structure CodedAll (headers : List Header) (output : List UInt8) : Prop where
  emits : Emits tape (Failure.error .bufferTooShort) (headers.forM fun h => octets (encodeHeader h)) output ()
  length_le : output.length ≤ (headers.map fun h => sizeOf h + 22).sum
  decodes : Decodes headers output

theorem codedAll_exists (countable : ∀ h ∈ headers, Countable h) : ∃ output, CodedAll headers output := by
  induction headers with
  | nil => exact ⟨[], emits_pure (), Nat.zero_le _, decodes_nil⟩
  | cons h rest ih =>
    obtain ⟨first, others⟩ := List.forall_mem_cons.mp countable
    obtain ⟨head, coded⟩ := coded_exists first
    obtain ⟨output, all⟩ := ih others
    have headLength := coded.length_le
    have restLength := all.length_le
    refine ⟨head ++ output, ?_, ?_, coded.decodes all.decodes⟩
    · exact (coded.appends.adaptExcept ofFault).bind all.emits
    · rw [List.length_append, List.map_cons, List.sum_cons, sizeOf]
      omega

theorem encodeAll_fails (uncountable : ¬ ∀ h ∈ headers, Countable h) :
    Fails (headers.forM fun h => octets (encodeHeader h)) := by
  induction headers with
  | nil => exact absurd (fun _ member => absurd member List.not_mem_nil) uncountable
  | cons h rest ih =>
    show Fails (octets (encodeHeader h) >>= fun _ => rest.forM fun h => octets (encodeHeader h))
    by_cases first : Countable h
    · have others : ¬ ∀ h ∈ rest, Countable h := fun others =>
        uncountable (List.forall_mem_cons.mpr ⟨first, others⟩)
      exact Fails.after (fun _ => ih others) _
    · exact ((encodeHeader_fails first).adaptExcept ofFault).bind _

end Lists

section Blocks

variable {headers : List Header}

def encodeBlock (headers : List Header) : Action Unit := do
  octets (encodeInt 0 0 8)
  octets (encodeInt 0 0 7)
  headers.forM fun h => octets (encodeHeader h)

theorem encode_eq (headers : List Header) : encode headers = encodeBlock headers >>= fun _ => return (← get).off := by
  simp only [encode, encodeBlock, bind_assoc]

theorem encodeBlock_emits {output : List UInt8} (all : CodedAll headers output) :
    Emits tape (Failure.error .bufferTooShort) (encodeBlock headers) ([0, 0] ++ output) () := by
  have zero : Emits tape (Failure.error .bufferTooShort) (octets (putU8 0)) [0] () :=
    (putU8_appends 0).adaptExcept ofFault
  exact zero.bind (zero.bind all.emits)

theorem reads_prefix : Reads cursor (decodeInt 8 >>= fun _ => decodeInt 7) [0, 0] 0 := by
  have count : Reads cursor (decodeInt 8) [0] 0 := (reads_byte 0).bind_pure rfl
  have base : Reads cursor (decodeInt 7) [0] 0 := (reads_byte 0).bind_pure rfl
  exact count.bind base

theorem encode_block {out : List UInt8} {len : Nat} {after : Octets}
    (ran : encode headers (withSlice out) = .ok len after) :
    ∃ output, CodedAll headers output ∧ after.buf.take len = [0, 0] ++ output := by
  rw [encode_eq] at ran
  obtain ⟨_, middle, wrote, last⟩ := bind_eq_ok ran
  have counted : (EStateM.Result.ok middle.off middle : EStateM.Result Failure Octets Nat) = .ok len after := last
  injection counted with length same
  by_cases countable : ∀ h ∈ headers, Countable h
  · obtain ⟨output, all⟩ := codedAll_exists countable
    obtain ⟨fits, _, appended⟩ := (encodeBlock_emits all).of_ok wrote
    refine ⟨output, all, ?_⟩
    have written : middle.written = (withSlice out).written ++ ([0, 0] ++ output) := by
      rw [appended]
      exact append_written fits
    rw [← same, ← length]
    exact written
  · have fails : Fails (encodeBlock headers) :=
      Fails.after (fun _ => Fails.after (fun _ => encodeAll_fails countable) _) _
    obtain ⟨failure, broken, failed⟩ := fails (withSlice out)
    rw [failed] at wrote
    contradiction

theorem decode_block {output : List UInt8} (all : CodedAll headers output) (maxSize : Nat) :
    decode ([0, 0] ++ output) maxSize = if (headers.map sizeOf).sum ≤ maxSize then .ok (headers.map lowered)
      else .error (.error .headerListTooLarge) := by
  have front : cursor.rest (withSlice ([0, 0] ++ output)) = [0, 0] ++ output := rfl
  obtain ⟨state, same⟩ : ∃ state, state = cursor.advance 2 (withSlice ([0, 0] ++ output)) := ⟨_, rfl⟩
  have prefixed : ((decodeInt 8 >>= fun _ => decodeInt 7) >>= fun _ => do decodeHeaders (← get).cap maxSize [])
      (withSlice ([0, 0] ++ output)) = decodeHeaders state.cap maxSize [] state ∧ cursor.rest state = output :=
    same ▸ reads_prefix.run front
  obtain ⟨run, rest⟩ := prefixed
  have turns : output.length ≤ state.cap := by
    have length : state.rest.length = output.length := congrArg List.length rest
    rw [← rest_length, length]
  obtain ⟨after, decoded⟩ := all.decodes state.cap maxSize [] state rest turns
  rw [bind_assoc, decoded] at run
  rw [decode]
  by_cases fits : (headers.map sizeOf).sum ≤ maxSize
  · rw [if_pos fits, List.nil_append] at run
    rw [if_pos fits]
    simp only [run]
  · rw [if_neg fits] at run
    rw [if_neg fits]
    simp only [run]

theorem headersLen_eq (fits : (headers.map fun h => sizeOf h + 32).sum < 2 ^ 59) :
    headers.foldlM (fun acc h => addU64 acc (h.value.length + h.name.length + 32)) 0 =
      some (headers.map fun h => sizeOf h + 32).sum := by
  have same : (headers.map fun h => h.value.length + h.name.length + 32) = headers.map fun h => sizeOf h + 32 :=
    List.map_congr_left fun h _ => by rw [sizeOf, Nat.add_comm h.name.length]
  have run := addU64_run (headers.map fun h => h.value.length + h.name.length + 32) 0 (by decide)
  rwa [List.foldlM_map, same, Nat.zero_add, if_pos (by omega)] at run

theorem textSize_le (lowerCase : Bool) (text : List UInt8) : textSize lowerCase text ≤ 30 * text.length := by
  induction text with
  | nil => exact Nat.zero_le _
  | cons byte rest ih =>
    have word := (encodeEntry_fits (fold lowerCase byte)).2.1
    rw [textSize, List.map_cons, List.sum_cons, ← textSize, List.length_cons]
    omega

theorem countable_of_size {h : Header} (small : sizeOf h < 2 ^ 59) : Countable h := by
  have name := textSize_le true h.name
  have value := textSize_le false h.value
  rw [sizeOf] at small
  rw [Countable]
  split
  · trivial
  · omega
  · exact ⟨by omega, by omega⟩

theorem le_sum_of_mem {Item : Type} (size : Item → Nat) {item : Item} {items : List Item} (member : item ∈ items) :
    size item ≤ (items.map size).sum := by
  induction member with
  | head rest =>
    rw [List.map_cons, List.sum_cons]
    exact Nat.le_add_right _ _
  | tail other _ ih =>
    rw [List.map_cons, List.sum_cons]
    exact Nat.le_add_left_of_le ih

theorem sum_spare (headers : List Header) :
    (headers.map fun h => sizeOf h + 32).sum = (headers.map fun h => sizeOf h + 22).sum + 10 * headers.length := by
  induction headers with
  | nil => rfl
  | cons h rest ih =>
    rw [List.map_cons, List.map_cons, List.sum_cons, List.sum_cons, ih, List.length_cons]
    omega

theorem encodeHeaderBlock_exists (someHeader : headers ≠ []) (fits : (headers.map fun h => sizeOf h + 32).sum < 2 ^ 59) :
    ∃ block, encodeHeaderBlock headers = .ok block := by
  have countable : ∀ h ∈ headers, Countable h := by
    intro h member
    have bound := le_sum_of_mem (fun h => sizeOf h + 32) member
    exact countable_of_size (by omega)
  obtain ⟨output, all⟩ := codedAll_exists countable
  obtain ⟨capacity, reserved⟩ : ∃ capacity, capacity = (headers.map fun h => sizeOf h + 32).sum := ⟨_, rfl⟩
  have spare : capacity = (headers.map fun h => sizeOf h + 22).sum + 10 * headers.length := reserved ▸ sum_spare headers
  have room : ([0, 0] ++ output).length ≤ (withSlice (.replicate capacity 0)).cap := by
    have length := all.length_le
    have count := List.length_pos_iff.mpr someHeader
    have capacityIs : (withSlice (.replicate capacity 0)).cap = capacity := by simp [withSlice, cap]
    rw [capacityIs, List.length_append, List.length_cons, List.length_cons, List.length_nil]
    omega
  have wrote := (encodeBlock_emits all).writes _ room
  have ran := bind_ok wrote fun _ => (do return (← get).off : Action Nat)
  rw [← encode_eq] at ran
  rw [encodeHeaderBlock, headersLen_eq fits, ← reserved]
  simp only [ran]
  exact ⟨_, rfl⟩

end Blocks

/-- Headers in memory can be encoded, and what was encoded is decoded as the headers with their names in lower
case, unless they exceed the limit of the decoder. -/
theorem qpack_round_trip (headers : List Header) :
    (headers ≠ [] → (headers.map fun h => sizeOf h + 32).sum < 2 ^ 59 → ∃ block, encodeHeaderBlock headers = .ok block) ∧
      ∀ out len after maxSize, encode headers (withSlice out) = .ok len after →
        decode (after.buf.take len) maxSize = if (headers.map sizeOf).sum ≤ maxSize then .ok (headers.map lowered)
          else .error (.error .headerListTooLarge) := by
  refine ⟨encodeHeaderBlock_exists, fun out len after maxSize ran => ?_⟩
  obtain ⟨output, all, block⟩ := encode_block ran
  rw [block, decode_block all]

/-- Of the first header the static table has name and value, of the second the name, and of the third neither. -/
def request : List Header := [⟨bytes ":METHOD", bytes "GET"⟩, ⟨bytes ":path", bytes "/a"⟩, ⟨bytes "X-a", bytes "b"⟩]

theorem qpack_round_trip_request : (∃ block, encodeHeaderBlock request = .ok block) ∧
      decode [0, 0, 209, 81, 130, 96, 127, 43, 242, 176, 255, 129, 143] 64 =
        .ok [⟨bytes ":method", bytes "GET"⟩, ⟨bytes ":path", bytes "/a"⟩, ⟨bytes "x-a", bytes "b"⟩] := by
  obtain ⟨encodes, decodes⟩ := qpack_round_trip request
  have ran : encode request (withSlice (.replicate 13 0)) =
      .ok 13 ⟨[0, 0, 209, 81, 130, 96, 127, 43, 242, 176, 255, 129, 143], 13, by decide⟩ := by rfl
  have decoded := decodes _ 13 _ 64 ran
  have within : (request.map sizeOf).sum ≤ 64 := by decide +kernel
  have lower : request.map lowered =
      [⟨bytes ":method", bytes "GET"⟩, ⟨bytes ":path", bytes "/a"⟩, ⟨bytes "x-a", bytes "b"⟩] := by decide +kernel
  rw [if_pos within, lower] at decoded
  exact ⟨encodes (by decide) (by decide +kernel), decoded⟩

end Quiche.H3.Qpack
