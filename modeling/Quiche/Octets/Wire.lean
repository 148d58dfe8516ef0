import Quiche.Data.Machine
import Quiche.Octets

namespace Quiche.Octets

open Data

variable {width value len tag : Nat}

section Integers

theorem peekU_rest {octets : Octets} {input tail : List UInt8}
    (front : octets.rest = input ++ tail) (length : input.length = width) :
    peekU width octets = .ok (ofBigEndian input) octets := by
  have enough : ¬ octets.cap < width := by
    rw [← rest_length, front, List.length_append]
    omega
  have taken : octets.rest.take width = input := by rw [front, ← length, List.take_left]
  show (if octets.cap < width then tooShort else pure (ofBigEndian (octets.rest.take width)) :
    Action Nat) octets = _
  rw [if_neg enough, taken]
  rfl

theorem reads_getU (width value : Nat) : Reads cursor (getU width) (bigEndian width value) (value % 256 ^ width) := by
  intro octets tail front
  have peeked := peekU_rest front (bigEndian_length width value)
  rw [ofBigEndian_bigEndian] at peeked
  rw [bigEndian_length]
  show EStateM.bind (peekU width) _ octets = _
  simp only [EStateM.bind, peeked]
  rfl

theorem reads_getU_of_lt (bound : value < 256 ^ width) : Reads cursor (getU width) (bigEndian width value) value := by
  have read := reads_getU width value
  rwa [Nat.mod_eq_of_lt bound] at read

theorem putU_append {octets : Octets} (fits : width ≤ octets.cap) :
    putU width value octets = .ok () (octets.append (bigEndian width value)) := by
  have within := octets.off_le
  have enough : ¬ octets.buf.length < octets.off + width := by
    simp only [cap] at fits
    omega
  show (if octets.buf.length < octets.off + width then tooShort
    else modify (append (bigEndian width value)) : Action Unit) octets = _
  rw [if_neg enough]
  rfl

theorem writes_putU (width value : Nat) : Writes tape (putU width value) (bigEndian width value) () := by
  intro octets fits
  rw [bigEndian_length] at fits
  exact putU_append fits

end Integers

section Bytes

theorem reads_getBytes (bytes : List UInt8) : Reads cursor (getBytes bytes.length) bytes bytes := by
  intro octets tail front
  change octets.rest = bytes ++ tail at front
  have enough : ¬ octets.cap < bytes.length := by
    rw [← rest_length, front, List.length_append]
    omega
  have taken : octets.rest.take bytes.length = bytes := by rw [front, List.take_left]
  show (if octets.cap < bytes.length then tooShort
    else do
      modify (advance bytes.length)
      pure (octets.rest.take bytes.length) : Action (List UInt8)) octets = _
  rw [if_neg enough, taken]
  rfl

theorem writes_putBytes (bytes : List UInt8) : Writes tape (putBytes bytes) bytes () := by
  intro octets fits
  have enough : ¬ octets.cap < bytes.length := Nat.not_lt.mpr fits
  show (if octets.cap < bytes.length then tooShort
    else if bytes.length = 0 then pure () else modify (append bytes) : Action Unit) octets = _
  rw [if_neg enough]
  split
  · rename_i empty
    rw [List.eq_nil_of_length_eq_zero empty, tape.append_nil]
    rfl
  · rfl

end Bytes

section Varint

/-- The widths of a variable-length integer with the two bits that mark them. -/
inductive VarintWidth : Nat → Nat → Prop where
  | one : VarintWidth 1 0
  | two : VarintWidth 2 1
  | four : VarintWidth 4 2
  | eight : VarintWidth 8 3

/-- The value leaves the two marking bits of an integer of `len` bytes free. -/
def FitsVarint (value len : Nat) : Prop := value < 64 * 256 ^ (len - 1)

/-- A variable-length integer of `len` bytes marked with `tag`. -/
def varintBytes (value len tag : Nat) : List UInt8 := bigEndian len (tag * 64 * 256 ^ (len - 1) + value)

@[simp] theorem varintBytes_length (value len tag : Nat) :
    (varintBytes value len tag).length = len := bigEndian_length len _

theorem modify_after (front rest : List UInt8) (head : UInt8) (f : UInt8 → UInt8) :
    (front ++ head :: rest).modify front.length f = front ++ f head :: rest :=
  List.modifyTailIdx_add _ 0 front (head :: rest)

theorem orByte_first {octets : Octets} {mask : UInt8} (head : UInt8) (tail : List UInt8) (fits : tail.length + 1 ≤ octets.cap) :
    orByte octets.off mask (octets.append (head :: tail)) = octets.append ((head ||| mask) :: tail) := by
  have plain : (head :: tail).length ≤ octets.cap := fits
  have marked : ((head ||| mask) :: tail).length ≤ octets.cap := fits
  apply ext_buf
  · simp only [orByte, append_buf plain, append_buf marked, List.length_cons]
    rw [List.append_assoc, List.cons_append, ← octets.written_length, modify_after, List.append_assoc, List.cons_append]
  · simp only [orByte, append_off plain, append_off marked, List.length_cons]

theorem orByte_append {octets : Octets} (bound : FitsVarint value (width + 1)) (tagBound : tag < 4)
    (fits : width + 1 ≤ octets.cap) :
    orByte octets.off (UInt8.ofNat (tag * 64)) (octets.append (bigEndian (width + 1) value)) =
      octets.append (varintBytes value (width + 1) tag) := by
  rw [FitsVarint, Nat.add_sub_cancel] at bound
  have marked := bigEndian_tag tagBound bound
  have size : (bigEndian width value).length + 1 ≤ octets.cap := by rwa [bigEndian_length]
  rw [varintBytes, Nat.add_sub_cancel, ← marked]
  exact orByte_first _ _ size

theorem writes_putMasked (bound : FitsVarint value (width + 1)) (tagBound : tag < 4) :
    Writes tape (putMasked (putU (width + 1) value) (UInt8.ofNat (tag * 64)))
      (varintBytes value (width + 1) tag) () := by
  intro octets fits
  rw [varintBytes_length] at fits
  show EStateM.bind (putU (width + 1) value) _ octets = _
  simp only [EStateM.bind, putU_append fits]
  exact congrArg (EStateM.Result.ok ()) (orByte_append bound tagBound fits)

section

variable (kind : VarintWidth len tag)

include kind

section

variable (bound : FitsVarint value len)

include bound

theorem writes_putVarintWithLen :
    Writes tape (putVarintWithLen value len) (varintBytes value len tag) () := by
  intro octets fits
  have enough : ¬ octets.cap < len := by
    rw [varintBytes_length] at fits
    exact Nat.not_lt.mpr fits
  cases kind with
  | one =>
    have plain : varintBytes value 1 0 = bigEndian 1 value := by simp [varintBytes]
    rw [plain] at fits ⊢
    rw [← writes_putU 1 value octets fits]
    exact congrFun (if_neg enough) octets
  | two =>
    rw [← writes_putMasked bound (by decide) octets fits]
    exact congrFun (if_neg enough) octets
  | four =>
    rw [← writes_putMasked bound (by decide) octets fits]
    exact congrFun (if_neg enough) octets
  | eight =>
    rw [← writes_putMasked bound (by decide) octets fits]
    exact congrFun (if_neg enough) octets

theorem varintParseLen_first :
    ∃ first rest, varintBytes value len tag = first :: rest ∧ varintParseLen first.toNat = len := by
  have parse : ∀ low < 64, ∀ high < 4, varintParseLen (UInt8.ofNat (high * 64 + low)).toNat = 2 ^ high := by decide
  have quotient : ∀ width, (tag * 64 * 256 ^ width + value) / 256 ^ width = tag * 64 + value / 256 ^ width := by
    intro width
    rw [Nat.mul_comm, Nat.mul_add_div (Nat.pow_pos (by decide))]
  have low : value / 256 ^ (len - 1) < 64 := by
    apply Nat.div_lt_of_lt_mul
    rwa [FitsVarint, Nat.mul_comm] at bound
  cases kind <;>
    exact ⟨_, _, rfl, by rw [quotient]; exact parse _ low _ (by decide)⟩

theorem reads_getVarintOfLen :
    Reads cursor (getVarintOfLen len) (varintBytes value len tag) value := by
  have wide : tag * 64 * 256 ^ (len - 1) + value < 256 ^ len := by
    cases kind <;> simp only [FitsVarint] at bound <;> omega
  have read : Reads cursor (getU len) (varintBytes value len tag)
      (tag * 64 * 256 ^ (len - 1) + value) := reads_getU_of_lt wide
  have unmark : ∀ bits, (tag * 64 * 256 ^ (len - 1) + value) % 2 ^ bits = value →
      Reads cursor ((· &&& (2 ^ bits - 1)) <$> getU len) (varintBytes value len tag) value := by
    intro bits low
    have masked := read.map (· &&& (2 ^ bits - 1))
    rwa [Nat.and_two_pow_sub_one_eq_mod, low] at masked
  cases kind with
  | one =>
    rw [Nat.zero_mul, Nat.zero_add] at read
    exact read
  | two => exact unmark 14 (by simp only [FitsVarint] at bound; omega)
  | four => exact unmark 30 (by simp only [FitsVarint] at bound; omega)
  | eight => exact unmark 62 (by simp only [FitsVarint] at bound; omega)

theorem reads_getVarint :
    Reads cursor getVarint (varintBytes value len tag) value := by
  intro octets tail front
  change octets.rest = varintBytes value len tag ++ tail at front
  obtain ⟨first, others, split, parsed⟩ := varintParseLen_first kind bound
  have peeked : peekU8 octets = .ok first.toNat octets := by
    have single : octets.rest = [first] ++ (others ++ tail) := by rw [front, split]; rfl
    have peek := peekU_rest single rfl
    simp only [ofBigEndian, List.length_nil, Nat.pow_zero, Nat.mul_one, Nat.add_zero] at peek
    exact peek
  have enough : ¬ len > octets.cap := by
    rw [← rest_length, front, List.length_append, varintBytes_length]
    omega
  rw [← reads_getVarintOfLen kind bound octets tail front]
  show EStateM.bind peekU8 _ octets = _
  simp only [EStateM.bind, peeked, parsed]
  exact congrFun (if_neg enough) octets

end

theorem VarintWidth.tag_eq : tag = len.log2 := by
  cases kind <;> rfl

end

theorem varintLen_exists (bound : value < 2 ^ 62) :
    ∃ len tag, varintLen value = some len ∧ VarintWidth len tag ∧ FitsVarint value len := by
  have within : value ≤ maxVarInt := by
    rw [maxVarInt]
    omega
  simp only [varintLen, if_pos within, FitsVarint]
  split
  · exact ⟨1, 0, rfl, .one, by omega⟩
  · split
    · exact ⟨2, 1, rfl, .two, by omega⟩
    · split
      · exact ⟨4, 2, rfl, .four, by omega⟩
      · exact ⟨8, 3, rfl, .eight, by omega⟩

/-- A variable-length integer of the least width. -/
def varint (value : Nat) : List UInt8 :=
  match varintLen value with
  | some len => varintBytes value len len.log2
  | none => []

theorem varint_exists (bound : value < 2 ^ 62) :
    ∃ len tag, varintLen value = some len ∧ varint value = varintBytes value len tag ∧
      VarintWidth len tag ∧ FitsVarint value len := by
  obtain ⟨len, tag, width, kind, fits⟩ := varintLen_exists bound
  refine ⟨len, tag, width, ?_, kind, fits⟩
  rw [varint, width, kind.tag_eq]

theorem varintLen_spec (known : varintLen value = some len) :
    value < 2 ^ 62 ∧ (varint value).length = len ∧ 0 < len ∧ len ≤ 8 := by
  have bound : value < 2 ^ 62 := by
    by_contra large
    grind [varintLen, maxVarInt]
  obtain ⟨width, tag, width_eq, bytes, kind, fits⟩ := varint_exists bound
  obtain rfl := Option.some.inj (width_eq.symm.trans known)
  refine ⟨bound, by rw [bytes, varintBytes_length], ?_, ?_⟩ <;> cases kind <;> decide

theorem writes_putVarint (bound : value < 2 ^ 62) : Writes tape (putVarint value) (varint value) () := by
  obtain ⟨len, tag, width, bytes, kind, fits⟩ := varint_exists bound
  rw [putVarint, width, bytes]
  exact writes_putVarintWithLen kind fits

theorem reads_varint (bound : value < 2 ^ 62) : Reads cursor getVarint (varint value) value := by
  obtain ⟨len, tag, _, bytes, kind, fits⟩ := varint_exists bound
  rw [bytes]
  exact reads_getVarint kind fits

theorem reads_getBytesWithVarintLength {bytes : List UInt8} (bound : bytes.length < 2 ^ 62) :
    Reads cursor getBytesWithVarintLength (varint bytes.length ++ bytes) bytes :=
  (reads_varint bound).bind (reads_getBytes bytes)

end Varint

/-- The call never panics and returns only values below `bound`. -/
abbrev Below (bound : Nat) (call : Action Nat) : Prop := Ensures Fault.panic call (· < bound)

theorem below_peekU (width : Nat) : Below (256 ^ width) (peekU width) := by
  apply ensures_get.bind
  intro octets _
  apply Ensures.ite
  · exact fun _ => ensures_throw (by simp) _
  · intro enough
    have taken : (octets.rest.take width).length = width := by
      rw [List.length_take, rest_length]
      omega
    have value := ofBigEndian_lt (octets.rest.take width)
    rw [taken] at value
    exact ensures_pure value

theorem below_getU (width : Nat) : Below (256 ^ width) (getU width) := by
  apply (below_peekU width).bind
  intro value bound
  apply (ensures_modify (advance width)).bind
  exact fun _ _ => ensures_pure bound

theorem ensures_getBytes (len : Nat) : Ensures Fault.panic (getBytes len) (·.length = len) := by
  apply ensures_get.bind
  intro octets _
  apply Ensures.ite
  · exact fun _ => ensures_throw (by simp) _
  · intro enough
    apply (ensures_modify (advance len)).bind
    intro _ _
    apply ensures_pure
    rw [List.length_take, rest_length]
    omega

theorem advance_cap (count : Nat) (octets : Octets) : (octets.advance count).cap = octets.cap - count := by
  have := octets.off_le
  simp only [cap, advance]
  omega

theorem getU_cases (width : Nat) (octets : Octets) :
    (octets.cap < width ∧ getU width octets = .error (.error .bufferTooShort) octets) ∨
      (width ≤ octets.cap ∧ ∃ value, getU width octets = .ok value (octets.advance width)) := by
  by_cases short : octets.cap < width
  · have peeked : peekU width octets = .error (.error .bufferTooShort) octets := congrFun (if_pos short) octets
    exact .inl ⟨short, bind_error peeked _⟩
  · have peeked : peekU width octets = .ok (ofBigEndian (octets.rest.take width)) octets :=
      congrFun (if_neg short) octets
    exact .inr ⟨Nat.not_lt.mp short, _, bind_ok peeked _⟩

theorem below_getVarintOfLen (first : Nat) : Below (2 ^ 62) (getVarintOfLen (varintParseLen first)) := by
  have masked : ∀ width mask, mask < 2 ^ 62 → Below (2 ^ 62) ((· &&& mask) <$> getU width) := by
    intro width mask small
    apply (below_getU width).map
    exact fun value _ => Nat.lt_of_le_of_lt Nat.and_le_right small
  rw [varintParseLen]
  split
  · exact (below_getU 1).mono fun value bound => Nat.lt_trans bound (by decide)
  · exact masked 2 0x3fff (by decide)
  · exact masked 4 0x3fffffff (by decide)
  · exact masked 8 0x3fffffffffffffff (by decide)

theorem below_getVarint : Below (2 ^ 62) getVarint := by
  apply (below_peekU 1).bind
  intro first _
  apply ensures_get.bind
  intro octets _
  apply Ensures.ite
  · exact fun _ => ensures_throw (by simp) _
  · exact fun _ => below_getVarintOfLen first

variable {size : Nat} {put : Action Unit} {mask : UInt8}

/-- The writer takes exactly `size` bytes of the buffer, or finds it too short. -/
abbrev Fills {Value : Type} (put : Action Value) (size : Nat) (value : Value) : Prop :=
  Spends tape (Fault.error .bufferTooShort) put size value

theorem fills_putU (width value : Nat) : Fills (putU width value) width () where
  fits := by
    intro octets enough
    exact ⟨_, bigEndian_length width value, putU_append enough⟩
  short := by
    intro octets less
    have exceeds : octets.buf.length < octets.off + width := by
      have less : octets.buf.length - octets.off < width := less
      have := octets.off_le
      omega
    exact ⟨octets, congrFun (if_pos exceeds) octets⟩

theorem fills_putMasked (filled : Fills put (size + 1) ()) (mask : UInt8) :
    Fills (putMasked put mask) (size + 1) () where
  fits := by
    intro octets enough
    obtain ⟨output, length, written⟩ := filled.fits octets enough
    obtain ⟨head, tail, rfl⟩ := List.exists_cons_of_length_eq_add_one length
    refine ⟨(head ||| mask) :: tail, length, ?_⟩
    show EStateM.bind put _ octets = _
    simp only [EStateM.bind, written]
    exact congrArg (EStateM.Result.ok ()) (orByte_first head tail (length.trans_le enough))
  short := by
    intro octets less
    obtain ⟨after, failed⟩ := filled.short octets less
    refine ⟨after, ?_⟩
    show EStateM.bind put _ octets = _
    simp only [EStateM.bind, failed]

theorem fills_guarded (filled : Fills put size ()) :
    Fills (do if (← get).cap < size then tooShort else put) size () where
  fits := by
    intro octets enough
    obtain ⟨output, length, written⟩ := filled.fits octets enough
    exact ⟨output, length, (congrFun (if_neg (Nat.not_lt.mpr enough)) octets).trans written⟩
  short := fun octets less => ⟨octets, congrFun (if_pos less) octets⟩

theorem fills_putVarintWithLen (kind : VarintWidth len tag) (value : Nat) :
    Fills (putVarintWithLen value len) len () := by
  cases kind with
  | one => exact fills_guarded (fills_putU 1 value)
  | two => exact fills_guarded (fills_putMasked (fills_putU 2 value) 0x40)
  | four => exact fills_guarded (fills_putMasked (fills_putU 4 value) 0x80)
  | eight => exact fills_guarded (fills_putMasked (fills_putU 8 value) 0xc0)

theorem varintLen_varint (bound : value < 2 ^ 62) : varintLen value = some (varint value).length := by
  obtain ⟨len, tag, width, bytes, _⟩ := varint_exists bound
  rw [width, bytes, varintBytes_length]

theorem fills_putVarint (bound : value < 2 ^ 62) : Fills (putVarint value) (varint value).length () := by
  obtain ⟨len, tag, width, bytes, kind, _⟩ := varint_exists bound
  rw [putVarint, width, bytes, varintBytes_length]
  exact fills_putVarintWithLen kind value

theorem fills_putBytes (bytes : List UInt8) : Fills (putBytes bytes) bytes.length () where
  fits := fun octets enough => ⟨bytes, rfl, writes_putBytes bytes octets enough⟩
  short := fun octets less => ⟨octets, congrFun (if_pos less) octets⟩

section Appends

variable {Value Result : Type} {first second output : List UInt8} {result : Value}

/-- The writer appends `output`, or finds the buffer too short for it. -/
abbrev Appends (put : Action Value) (output : List UInt8) (result : Value) : Prop :=
  Emits tape (Fault.error .bufferTooShort) put output result

theorem appends_putU (width value : Nat) : Appends (putU width value) (bigEndian width value) () where
  writes := writes_putU width value
  spends := (fills_putU width value).of_eq (bigEndian_length width value).symm

theorem appends_putVarint (bound : value < 2 ^ 62) : Appends (putVarint value) (varint value) () where
  writes := writes_putVarint bound
  spends := fills_putVarint bound

theorem appends_putBytes (bytes : List UInt8) : Appends (putBytes bytes) bytes () where
  writes := writes_putBytes bytes
  spends := fills_putBytes bytes

end Appends

end Quiche.Octets
