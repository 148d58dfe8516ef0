import Quiche.Data.Machine
import Quiche.Octets

namespace Quiche

open Data

/-- `Octets` and `OctetsMut` as the code keeps them: that the offset lies within the buffer is not part of the
type, and indexing out of the buffer panics. -/
structure RawOctets where
  buf : List UInt8
  off : Nat
deriving DecidableEq

namespace RawOctets

abbrev Action := EStateM Fault RawOctets

def withSlice (buf : List UInt8) : RawOctets := ⟨buf, 0⟩

def tooShort {Value : Type} : Action Value := throw (.error .bufferTooShort)

/-- `&self.buf[start..stop]` -/
def index (start stop : Nat) : Action (List UInt8) := do
  let octets ← get
  if start ≤ stop ∧ stop ≤ octets.buf.length then pure ((octets.buf.take stop).drop start) else throw .panic

/-- `&self.buf[start..]` -/
def indexFrom (start : Nat) : Action (List UInt8) := do index start (← get).buf.length

/-- A copy to `&mut self.buf[start..]` -/
def store (start : Nat) (bytes : List UInt8) : Action Unit := do
  let _ ← index start (start + bytes.length)
  modify fun octets =>
    { octets with buf := octets.buf.take start ++ bytes ++ octets.buf.drop (start + bytes.length) }

/-- `self.off += count` -/
def advance (count : Nat) : Action Unit := modify fun octets => { octets with off := octets.off + count }

def cap : Action Nat := do
  let octets ← get
  if octets.off ≤ octets.buf.length then pure (octets.buf.length - octets.off) else throw .panic

/-- `peek_u!` -/
def peekU (width : Nat) : Action Nat := do
  let src ← indexFrom (← get).off
  if src.length < width then tooShort else pure (ofBigEndian (src.take width))

/-- `get_u!` -/
def getU (width : Nat) : Action Nat := do
  let out ← peekU width
  advance width
  pure out

/-- `put_u!` -/
def putU (width value : Nat) : Action Unit := do
  let octets ← get
  if octets.buf.length < octets.off + width then tooShort
  else
    store octets.off (bigEndian width value)
    advance width

/-- The `match` of `get_varint` -/
def getVarintOfLen : Nat → Action Nat
  | 1 => getU 1
  | 2 => (· &&& 0x3fff) <$> getU 2
  | 4 => (· &&& 0x3fffffff) <$> getU 4
  | 8 => (· &&& 0x3fffffffffffffff) <$> getU 8
  | _ => throw .panic

def getVarint : Action Nat := do
  let first ← peekU 1
  let len := varintParseLen first
  if len > (← cap) then tooShort else getVarintOfLen len

/-- `buf[0] |= mask` in what `putU` returns -/
def putMasked (width value : Nat) (mask : UInt8) : Action Unit := do
  let start := (← get).off
  putU width value
  modify fun octets => { octets with buf := octets.buf.modify start (· ||| mask) }

def putVarintWithLen (value len : Nat) : Action Unit := do
  if (← cap) < len then tooShort
  else
    match len with
    | 1 => putU 1 value
    | 2 => putMasked 2 value 0x40
    | 4 => putMasked 4 value 0x80
    | 8 => putMasked 8 value 0xc0
    | _ => throw .panic

def putVarint (value : Nat) : Action Unit :=
  match varintLen value with
  | some len => putVarintWithLen value len
  | none => throw .panic

def peekBytes (len : Nat) : Action (List UInt8) := do
  if (← cap) < len then tooShort
  else
    let off := (← get).off
    index off (off + len)

def getBytes (len : Nat) : Action (List UInt8) := do
  let out ← peekBytes len
  advance len
  pure out

def putBytes (bytes : List UInt8) : Action Unit := do
  if (← cap) < bytes.length then tooShort
  else if bytes.length = 0 then pure ()
  else
    store (← get).off bytes
    advance bytes.length

def splitAt (off : Nat) : Action (List UInt8 × List UInt8) := do
  if (← get).buf.length < off then tooShort
  else
    let left ← index 0 off
    let right ← indexFrom off
    pure (left, right)

def slice (len : Nat) : Action (List UInt8) := do
  if len > (← cap) then tooShort
  else
    let off := (← get).off
    index off (off + len)

def sliceLast (len : Nat) : Action (List UInt8) := do
  if len > (← cap) then tooShort
  else
    let cap ← cap
    indexFrom (cap - len)

def skip (count : Nat) : Action Unit := do
  if count > (← cap) then tooShort else advance count

end RawOctets

/-- The integers that `get_u*`, `peek_u8` and `put_u*` are for. -/
inductive Width where
  | u8
  | u16
  | u24
  | u32
  | u64
deriving DecidableEq

def Width.bytes : Width → Nat
  | .u8 => 1
  | .u16 => 2
  | .u24 => 3
  | .u32 => 4
  | .u64 => 8

inductive OctetsOp where
  | getU (width : Width)
  | peekU8
  | putU (width : Width) (value : Nat)
  | getVarint
  | putVarint (value : Nat)
  | putVarintWithLen (value len : Nat)
  | getBytes (len : Nat)
  | peekBytes (len : Nat)
  | putBytes (bytes : List UInt8)
  | splitAt (off : Nat)
  | slice (len : Nat)
  | sliceLast (len : Nat)
  | skip (count : Nat)

inductive OctetsValue where
  | number (value : Nat)
  | bytes (value : List UInt8)
  | halves (left right : List UInt8)
  | unit
deriving DecidableEq

/-- The calls whose panic is the caller's: there is no such variable-length integer. -/
def OctetsOp.Unencodable : OctetsOp → Prop
  | .putVarint value => maxVarInt < value
  | .putVarintWithLen _ len => len ∉ [1, 2, 4, 8]
  | _ => False

namespace RawOctets

def call : OctetsOp → Action OctetsValue
  | .getU width => .number <$> getU width.bytes
  | .peekU8 => .number <$> peekU 1
  | .putU width value => (fun _ => .unit) <$> putU width.bytes value
  | .getVarint => .number <$> getVarint
  | .putVarint value => (fun _ => .unit) <$> putVarint value
  | .putVarintWithLen value len => (fun _ => .unit) <$> putVarintWithLen value len
  | .getBytes len => .bytes <$> getBytes len
  | .peekBytes len => .bytes <$> peekBytes len
  | .putBytes bytes => (fun _ => .unit) <$> putBytes bytes
  | .splitAt off => (fun halves => .halves halves.1 halves.2) <$> splitAt off
  | .slice len => .bytes <$> slice len
  | .sliceLast len => .bytes <$> sliceLast len
  | .skip count => (fun _ => .unit) <$> skip count

/-- A panic ends a run, an error does not. -/
def machine : Machine RawOctets OctetsOp where
  step octets op :=
    match call op octets with
    | .error .panic _ => none
    | .error (.error _) next => some next
    | .ok _ next => some next

/-- The offset is within the buffer. -/
def Within (octets : RawOctets) : Prop := octets.off ≤ octets.buf.length

/-- A call returns with the offset in the same buffer, or finds it too short and changes nothing, or panics
where that is granted. -/
def Settles {Value : Type} (call : Action Value) (panics : Prop) (octets : RawOctets) : Prop :=
  call octets = .error (.error .bufferTooShort) octets ∨
    (∃ value next, call octets = .ok value next ∧ next.Within ∧ next.buf.length = octets.buf.length) ∨
    panics ∧ ∃ next, call octets = .error .panic next

section Calls

variable {Value Result : Type} {octets next : RawOctets} {panics : Prop} {width value len start stop count : Nat}
  {bytes : List UInt8}

theorem cap_eq (within : octets.Within) : cap octets = .ok (octets.buf.length - octets.off) octets :=
  congrFun (if_pos within) octets

theorem index_eq (ordered : start ≤ stop) (bounded : stop ≤ octets.buf.length) :
    index start stop octets = .ok ((octets.buf.take stop).drop start) octets :=
  congrFun (if_pos ⟨ordered, bounded⟩) octets

theorem indexFrom_eq (bounded : start ≤ octets.buf.length) :
    indexFrom start octets = .ok (octets.buf.drop start) octets := by
  have indexed := index_eq bounded (Nat.le_refl octets.buf.length)
  rw [List.take_length] at indexed
  exact indexed

theorem store_eq (bounded : start + bytes.length ≤ octets.buf.length) : store start bytes octets = .ok ()
      { octets with buf := octets.buf.take start ++ bytes ++ octets.buf.drop (start + bytes.length) } := by
  rw [store, bind_ok (index_eq (Nat.le_add_right start bytes.length) bounded)]
  rfl

theorem stored_length (octets : RawOctets) (bounded : start + bytes.length ≤ octets.buf.length) :
    (octets.buf.take start ++ bytes ++ octets.buf.drop (start + bytes.length)).length = octets.buf.length := by
  simp only [List.length_append, List.length_take, List.length_drop]
  omega

theorem Settles.map {call : Action Value} (settles : Settles call panics octets) (f : Value → Result) :
    Settles (f <$> call) panics octets := by
  rw [Settles, map_eq_pure_bind]
  rcases settles with short | ⟨value, next, called, within, length⟩ | ⟨granted, next, panicked⟩
  · exact .inl (bind_error short _)
  · exact .inr (.inl ⟨f value, next, bind_ok called _, within, length⟩)
  · exact .inr (.inr ⟨granted, next, bind_error panicked _⟩)

theorem Settles.after {call : Action Value} {next : Value → Action Result} {value : Value}
    (called : call octets = .ok value octets) (settles : Settles (next value) panics octets) :
    Settles (call >>= next) panics octets := by
  rw [Settles, bind_ok called]
  exact settles

theorem settles_tooShort (octets : RawOctets) : Settles (tooShort : Action Value) panics octets := .inl rfl

theorem settles_pure (within : octets.Within) (value : Value) : Settles (pure value) panics octets :=
  .inr (.inl ⟨value, octets, rfl, within, rfl⟩)

theorem Settles.ite {condition : Prop} [Decidable condition] {first second : Action Value}
    (positive : condition → Settles first panics octets) (negative : ¬ condition → Settles second panics octets) :
    Settles (if condition then first else second) panics octets := by
  split
  · rename_i holds
    exact positive holds
  · rename_i holds
    exact negative holds

theorem settles_advance (fits : octets.off + count ≤ octets.buf.length) : Settles (advance count) panics octets :=
  .inr (.inl ⟨⟨⟩, { octets with off := octets.off + count }, rfl, fits, rfl⟩)

section

variable (within : octets.Within)

include within

theorem peekU_cases (width : Nat) :
    octets.buf.length < octets.off + width ∧ peekU width octets = .error (.error .bufferTooShort) octets ∨
      octets.off + width ≤ octets.buf.length ∧
        peekU width octets = .ok (ofBigEndian ((octets.buf.drop octets.off).take width)) octets := by
  have peeked : peekU width octets = (if (octets.buf.drop octets.off).length < width then tooShort
      else pure (ofBigEndian ((octets.buf.drop octets.off).take width)) : Action Nat) octets :=
    bind_ok (indexFrom_eq within) _
  rw [Within] at within
  rw [peeked, List.length_drop]
  by_cases short : octets.buf.length - octets.off < width
  · rw [if_pos short]
    exact .inl ⟨by omega, rfl⟩
  · rw [if_neg short]
    exact .inr ⟨by omega, rfl⟩

theorem getU_cases (width : Nat) :
    octets.buf.length < octets.off + width ∧ getU width octets = .error (.error .bufferTooShort) octets ∨
      octets.off + width ≤ octets.buf.length ∧
        getU width octets = .ok (ofBigEndian ((octets.buf.drop octets.off).take width))
          { octets with off := octets.off + width } := by
  rcases peekU_cases within width with ⟨short, peeked⟩ | ⟨fits, peeked⟩
  · exact .inl ⟨short, bind_error peeked _⟩
  · exact .inr ⟨fits, bind_ok peeked _⟩

theorem settles_peekU : Settles (peekU width) panics octets := by
  rcases peekU_cases within width with ⟨_, peeked⟩ | ⟨_, peeked⟩
  · exact .inl peeked
  · exact .inr (.inl ⟨_, octets, peeked, within, rfl⟩)

theorem settles_getU : Settles (getU width) panics octets := by
  rcases getU_cases within width with ⟨_, got⟩ | ⟨fits, got⟩
  · exact .inl got
  · exact .inr (.inl ⟨_, _, got, fits, rfl⟩)

end

theorem putU_cases (octets : RawOctets) (width value : Nat) :
    octets.buf.length < octets.off + width ∧ putU width value octets = .error (.error .bufferTooShort) octets ∨
      octets.off + width ≤ octets.buf.length ∧ putU width value octets = .ok ()
          { buf := octets.buf.take octets.off ++ bigEndian width value ++ octets.buf.drop (octets.off + width)
            off := octets.off + width } := by
  have size : (bigEndian width value).length = width := bigEndian_length width value
  by_cases short : octets.buf.length < octets.off + width
  · exact .inl ⟨short, congrFun (if_pos short) octets⟩
  · have fits : octets.off + (bigEndian width value).length ≤ octets.buf.length := by omega
    have put : putU width value octets = (store octets.off (bigEndian width value) >>= fun _ => advance width) octets :=
      congrFun (if_neg short) octets
    rw [bind_ok (store_eq fits), size] at put
    exact .inr ⟨Nat.not_lt.mp short, put⟩

theorem settles_putU (width value : Nat) (octets : RawOctets) : Settles (putU width value) panics octets := by
  rcases putU_cases octets width value with ⟨_, put⟩ | ⟨fits, put⟩
  · exact .inl put
  · have size : (bigEndian width value).length = width := bigEndian_length width value
    have room : octets.off + (bigEndian width value).length ≤ octets.buf.length := by omega
    have length := stored_length octets room
    rw [size] at length
    exact .inr (.inl ⟨_, _, put, fits.trans (Nat.le_of_eq length.symm), length⟩)

theorem settles_getVarint (within : octets.Within) : Settles getVarint panics octets := by
  rcases peekU_cases within 1 with ⟨_, peeked⟩ | ⟨_, peeked⟩
  · exact .inl (bind_error peeked _)
  refine .after peeked (.after (cap_eq within) (.ite (fun _ => settles_tooShort octets) fun _ => ?_))
  rw [varintParseLen]
  split
  · exact settles_getU within
  · exact (settles_getU within).map _
  · exact (settles_getU within).map _
  · exact (settles_getU within).map _

theorem settles_putMasked (octets : RawOctets) (mask : UInt8) : Settles (putMasked width value mask) panics octets := by
  have settles : Settles (putU width value) panics octets := settles_putU width value octets
  rcases settles with short | ⟨_, next, put, bounded, length⟩ | ⟨granted, next, panicked⟩
  · exact .inl (bind_error short _)
  · refine .inr (.inl ⟨⟨⟩, { next with buf := next.buf.modify octets.off (· ||| mask) }, bind_ok put _, ?_, ?_⟩)
    · exact bounded.trans (Nat.le_of_eq (List.length_modify _ _ _).symm)
    · exact (List.length_modify _ _ _).trans length
  · exact .inr (.inr ⟨granted, next, bind_error panicked _⟩)

section

variable (within : octets.Within)

include within

theorem settles_putVarintWithLen (granted : len ∉ [1, 2, 4, 8] → panics) :
    Settles (putVarintWithLen value len) panics octets := by
  refine .after (cap_eq within) (.ite (fun _ => settles_tooShort octets) fun _ => ?_)
  split
  · exact settles_putU _ _ octets
  · exact settles_putMasked octets 0x40
  · exact settles_putMasked octets 0x80
  · exact settles_putMasked octets 0xc0
  · rename_i one two four eight
    refine .inr (.inr ⟨granted ?_, octets, rfl⟩)
    simp only [List.mem_cons, List.not_mem_nil, or_false, not_or]
    exact ⟨one, two, four, eight⟩

theorem settles_putVarint (granted : maxVarInt < value → panics) :
    Settles (putVarint value) panics octets := by
  rw [putVarint, varintLen]
  split
  · rename_i chosen
    refine settles_putVarintWithLen within fun other => absurd ?_ other
    split at chosen
    · cases chosen
      simp
    split at chosen
    · cases chosen
      simp
    split at chosen
    · cases chosen
      simp
    split at chosen
    · cases chosen
      simp
    · cases chosen
  · rename_i above
    have large : maxVarInt < value := by
      split at above
      · cases above
      split at above
      · cases above
      split at above
      · cases above
      split at above
      · cases above
      · rename_i large
        exact Nat.not_le.mp large
    exact .inr (.inr ⟨granted large, octets, rfl⟩)

theorem settles_slice (fits : octets.off + len ≤ octets.buf.length) :
    Settles (index octets.off (octets.off + len)) panics octets :=
  .inr (.inl ⟨_, octets, index_eq (Nat.le_add_right _ _) fits, within, rfl⟩)

theorem fits_of_not_short (enough : ¬ octets.buf.length - octets.off < len) :
    octets.off + len ≤ octets.buf.length := by
  rw [Within] at within
  omega

theorem peekBytes_cases (len : Nat) :
    octets.buf.length < octets.off + len ∧ peekBytes len octets = .error (.error .bufferTooShort) octets ∨
      octets.off + len ≤ octets.buf.length ∧
        peekBytes len octets = .ok ((octets.buf.take (octets.off + len)).drop octets.off) octets := by
  have peeked : peekBytes len octets = (if octets.buf.length - octets.off < len then tooShort
      else get >>= fun octets => index octets.off (octets.off + len) : Action (List UInt8)) octets :=
    bind_ok (cap_eq within) _
  rw [peeked]
  by_cases short : octets.buf.length - octets.off < len
  · rw [if_pos short]
    exact .inl ⟨by omega, rfl⟩
  · have fits := fits_of_not_short within short
    rw [if_neg short]
    exact .inr ⟨fits, index_eq (Nat.le_add_right _ _) fits⟩

theorem settles_peekBytes : Settles (peekBytes len) panics octets := by
  rcases peekBytes_cases within len with ⟨_, peeked⟩ | ⟨_, peeked⟩
  · exact .inl peeked
  · exact .inr (.inl ⟨_, octets, peeked, within, rfl⟩)

theorem settles_getBytes : Settles (getBytes len) panics octets := by
  rcases peekBytes_cases within len with ⟨_, peeked⟩ | ⟨fits, peeked⟩
  · exact .inl (bind_error peeked _)
  · refine .inr (.inl ⟨_, { octets with off := octets.off + len }, bind_ok peeked _, fits, rfl⟩)

theorem settles_putBytes : Settles (putBytes bytes) panics octets := by
  refine .after (cap_eq within) (.ite (fun _ => settles_tooShort octets) fun enough => ?_)
  refine Settles.ite (fun _ => settles_pure within _) fun _ => ?_
  have fits := fits_of_not_short within enough
  have length := stored_length octets fits
  exact .inr (.inl ⟨_, _, bind_ok (store_eq fits) _, fits.trans (Nat.le_of_eq length.symm), length⟩)

theorem settles_splitAt (off : Nat) : Settles (splitAt off) panics octets := by
  refine Settles.ite (fun _ => settles_tooShort octets) fun enough => ?_
  have bounded := Nat.not_lt.mp enough
  exact .after (index_eq (Nat.zero_le off) bounded) (.after (indexFrom_eq bounded) (settles_pure within _))

theorem settles_skip : Settles (skip count) panics octets :=
  .after (cap_eq within) (.ite (fun _ => settles_tooShort octets) fun enough =>
    settles_advance (fits_of_not_short within enough))

theorem settles_sliceAt : Settles (slice len) panics octets :=
  .after (cap_eq within) (.ite (fun _ => settles_tooShort octets) fun enough =>
    settles_slice within (fits_of_not_short within enough))

theorem sliceLast_cases (len : Nat) :
    octets.buf.length < octets.off + len ∧ sliceLast len octets = .error (.error .bufferTooShort) octets ∨
      octets.off + len ≤ octets.buf.length ∧
        sliceLast len octets = .ok (octets.buf.drop (octets.buf.length - octets.off - len)) octets := by
  have sliced : sliceLast len octets = (if len > octets.buf.length - octets.off then tooShort
      else cap >>= fun cap => indexFrom (cap - len) : Action (List UInt8)) octets := bind_ok (cap_eq within) _
  rw [sliced]
  by_cases short : octets.buf.length - octets.off < len
  · rw [if_pos short]
    exact .inl ⟨by omega, rfl⟩
  · rw [if_neg short, bind_ok (cap_eq within)]
    exact .inr ⟨fits_of_not_short within short, indexFrom_eq (by omega)⟩

theorem settles_sliceLast : Settles (sliceLast len) panics octets := by
  rcases sliceLast_cases within len with ⟨_, sliced⟩ | ⟨_, sliced⟩
  · exact .inl sliced
  · exact .inr (.inl ⟨_, octets, sliced, within, rfl⟩)

end

end Calls

variable {octets : RawOctets}

theorem call_settles (within : octets.Within) (op : OctetsOp) : Settles (call op) op.Unencodable octets := by
  cases op with
  | getU width => exact (settles_getU within).map _
  | peekU8 => exact (settles_peekU within).map _
  | putU width value => exact (settles_putU _ value octets).map _
  | getVarint => exact (settles_getVarint within).map _
  | putVarint value => exact (settles_putVarint within fun large => large).map _
  | putVarintWithLen value len => exact (settles_putVarintWithLen within fun other => other).map _
  | getBytes len => exact (settles_getBytes within).map _
  | peekBytes len => exact (settles_peekBytes within).map _
  | putBytes bytes => exact (settles_putBytes within).map _
  | splitAt off => exact (settles_splitAt within off).map _
  | slice len => exact (settles_sliceAt within).map _
  | sliceLast len => exact (settles_sliceLast within).map _
  | skip count => exact (settles_skip within).map _

theorem step_within {next : RawOctets} {op : OctetsOp} (within : octets.Within)
    (stepped : machine.step octets op = some next) : next.Within := by
  simp only [machine] at stepped
  rcases call_settles within op with short | ⟨value, last, called, bounded, _⟩ | ⟨_, last, panicked⟩
  · rw [short] at stepped
    cases stepped
    exact within
  · rw [called] at stepped
    cases stepped
    exact bounded
  · rw [panicked] at stepped
    cases stepped

theorem run_within {buf : List UInt8} {ops : List OctetsOp}
    (completed : machine.run (withSlice buf) ops = some octets) : octets.Within :=
  machine.run_keeps (fun _ _ _ => step_within) (show (withSlice buf).Within from Nat.zero_le buf.length) completed

/-- After any operations on any buffer the offset lies within it, an operation that fails changes nothing and
panics only for a variable-length integer that there is none of, and `slice_last` returns the last bytes of the
buffer exactly where the offset is zero. -/
theorem octets_safe {buf : List UInt8} {ops : List OctetsOp}
    (completed : machine.run (withSlice buf) ops = some octets) : octets.off ≤ octets.buf.length ∧
      (∀ op reason next, call op octets = .error (.error reason) next → next = octets) ∧
      (∀ op next, call op octets = .error .panic next → op.Unencodable) ∧
      ∀ len, (∀ bytes next, sliceLast len octets = .ok bytes next →
          bytes = octets.buf.drop (octets.buf.length - len)) ↔
        octets.off = 0 ∨ octets.buf.length < octets.off + len := by
  have within := run_within completed
  refine ⟨within, ?_, ?_, ?_⟩
  · intro op reason next failed
    rcases call_settles within op with short | ⟨value, last, called, _⟩ | ⟨_, last, panicked⟩
    · cases short.symm.trans failed
      rfl
    · cases called.symm.trans failed
    · cases panicked.symm.trans failed
  · intro op next failed
    rcases call_settles within op with short | ⟨value, last, called, _⟩ | ⟨granted, _⟩
    · cases short.symm.trans failed
    · cases called.symm.trans failed
    · exact granted
  · intro len
    rcases sliceLast_cases within len with ⟨short, sliced⟩ | ⟨fits, sliced⟩
    · refine ⟨fun _ => .inr short, fun _ bytes next returned => ?_⟩
      cases sliced.symm.trans returned
    · constructor
      · intro positional
        have length := congrArg List.length (positional _ octets sliced)
        simp only [List.length_drop] at length
        exact .inl (by omega)
      · rintro (start | short) bytes next returned
        · cases sliced.symm.trans returned
          rw [start, Nat.sub_zero]
        · exact absurd short (Nat.not_lt.mpr fits)

theorem octets_safe_four : (∃ octets, machine.run (withSlice [1, 2, 3, 4]) [.getU .u16, .putU .u8 9] = some octets ∧
      octets.off ≤ octets.buf.length ∧
      (∀ op reason next, call op octets = .error (.error reason) next → next = octets) ∧
      (∀ op next, call op octets = .error .panic next → op.Unencodable) ∧
      ∀ len, (∀ bytes next, sliceLast len octets = .ok bytes next →
          bytes = octets.buf.drop (octets.buf.length - len)) ↔ octets.off = 0 ∨ octets.buf.length < octets.off + len) :=
  have completed : machine.run (withSlice [1, 2, 3, 4]) [.getU .u16, .putU .u8 9] = some ⟨[1, 2, 9, 4], 3⟩ := by
    decide +kernel
  ⟨⟨[1, 2, 9, 4], 3⟩, completed, octets_safe completed⟩

/-- Two bytes into a buffer of four, the last one of them comes with the two before it. -/
theorem sliceLast_too_long :
    ¬ ∀ (buf : List UInt8) (ops : List OctetsOp) (octets next : RawOctets) (len : Nat) (bytes : List UInt8),
      machine.run (withSlice buf) ops = some octets → sliceLast len octets = .ok bytes next →
        bytes = octets.buf.drop (octets.buf.length - len) := by
  intro claimed
  have last := claimed [1, 2, 3, 4] [.skip 2] ⟨[1, 2, 3, 4], 2⟩ ⟨[1, 2, 3, 4], 2⟩ 1 [2, 3, 4] (by decide +kernel)
    rfl
  exact absurd last (by decide)

end RawOctets

/-- The buffer without the proof that its offset lies within it. -/
def Octets.erase (octets : Octets) : RawOctets := ⟨octets.buf, octets.off⟩

namespace RawOctets

variable {Value Result : Type}

theorem erase_within (octets : Octets) : octets.erase.Within := octets.off_le

def erased : EStateM.Result Fault Octets Value → EStateM.Result Fault RawOctets Value
  | .ok value octets => .ok value octets.erase
  | .error fault octets => .error fault octets.erase

/-- On a buffer whose offset lies within it the code does what `call` says. -/
def Refines (raw : Action Value) (call : Octets.Action Value) : Prop :=
  ∀ octets : Octets, raw octets.erase = erased (call octets)

variable {raw : Action Value} {call : Octets.Action Value}

theorem Refines.bind {after : Value → Action Result} {next : Value → Octets.Action Result} (first : Refines raw call)
    (second : ∀ value, Refines (after value) (next value)) : Refines (raw >>= after) (call >>= next) := by
  intro octets
  have called := first octets
  cases result : call octets with
  | ok value middle =>
    rw [result] at called
    rw [bind_ok called, bind_ok result]
    exact second value middle
  | error fault middle =>
    rw [result] at called
    rw [bind_error called, bind_error result]
    rfl

theorem refines_pure (value : Value) : Refines (pure value) (pure value) := fun _ => rfl

theorem refines_throw (fault : Fault) : Refines (throw fault : Action Value) (throw fault) := fun _ => rfl

theorem Refines.map (refines : Refines raw call) (f : Value → Result) : Refines (f <$> raw) (f <$> call) := by
  rw [map_eq_pure_bind, map_eq_pure_bind]
  exact refines.bind fun value => refines_pure (f value)

theorem Refines.ite {condition : Prop} [Decidable condition] {other : Action Value} {otherCall : Octets.Action Value}
    (positive : Refines raw call) (negative : Refines other otherCall) :
    Refines (if condition then raw else other) (if condition then call else otherCall) := by
  split
  · exact positive
  · exact negative

theorem refines_cap {raw : Nat → Action Value} {call : Nat → Octets.Action Value}
    (refines : ∀ cap, Refines (raw cap) (call cap)) : Refines (cap >>= raw) (get >>= fun octets => call octets.cap) := by
  intro octets
  rw [bind_ok (cap_eq (erase_within octets))]
  exact refines octets.cap octets

variable {octets : Octets} {width count : Nat} {bytes : List UInt8}

theorem advance_erase (fits : octets.off + count ≤ octets.buf.length) :
    (octets.advance count).erase = ⟨octets.buf, octets.off + count⟩ := by
  rw [Octets.erase, Octets.advance]
  dsimp only
  rw [Nat.min_eq_left fits]

theorem append_erase (fits : octets.off + bytes.length ≤ octets.buf.length) : (octets.append bytes).erase =
      ⟨octets.buf.take octets.off ++ bytes ++ octets.buf.drop (octets.off + bytes.length),
        octets.off + bytes.length⟩ := by
  have room : bytes.length ≤ octets.cap := by
    rw [Octets.cap]
    omega
  rw [Octets.erase, Octets.append_buf room, Octets.append_off room]
  rfl

theorem peekU_refines (width : Nat) : Refines (peekU width) (Octets.peekU width) := by
  intro octets
  have bounded := octets.off_le
  rcases peekU_cases (erase_within octets) width with ⟨short, peeked⟩ | ⟨fits, peeked⟩
  · have small : octets.cap < width := by
      have beyond : octets.buf.length < octets.off + width := short
      rw [Octets.cap]
      omega
    have same : Octets.peekU width octets = .error (.error .bufferTooShort) octets := congrFun (if_pos small) octets
    rw [peeked, same]
    rfl
  · have enough : ¬ octets.cap < width := by
      have inBuffer : octets.off + width ≤ octets.buf.length := fits
      rw [Octets.cap]
      omega
    have same : Octets.peekU width octets = .ok (ofBigEndian (octets.rest.take width)) octets :=
      congrFun (if_neg enough) octets
    rw [peeked, same]
    rfl

theorem getU_refines (width : Nat) : Refines (getU width) (Octets.getU width) := by
  intro octets
  have peek := peekU_refines width octets
  rcases peekU_cases (erase_within octets) width with ⟨_, peeked⟩ | ⟨fits, peeked⟩
  · cases result : Octets.peekU width octets with
    | ok value middle => rw [result, peeked] at peek; cases peek
    | error fault middle =>
      rw [result] at peek
      rw [getU, Octets.getU, bind_error peek, bind_error result]
      rfl
  · cases result : Octets.peekU width octets with
    | error fault middle => rw [result, peeked] at peek; cases peek
    | ok value middle =>
      have same : middle = octets := by
        rw [Octets.peekU, get_bind] at result
        split at result
        · cases result
        · cases result
          rfl
      rw [result, same] at peek
      rw [same] at result
      rw [getU, Octets.getU, bind_ok peek, bind_ok result]
      exact (congrArg (EStateM.Result.ok value) (advance_erase fits)).symm

theorem putU_refines (width value : Nat) : Refines (putU width value) (Octets.putU width value) := by
  intro octets
  rcases putU_cases octets.erase width value with ⟨short, put⟩ | ⟨fits, put⟩
  · have same : Octets.putU width value octets = .error (.error .bufferTooShort) octets := congrFun (if_pos short) octets
    rw [put, same]
    rfl
  · have same : Octets.putU width value octets = .ok () (octets.append (bigEndian width value)) :=
      congrFun (if_neg (Nat.not_lt.mpr fits)) octets
    have size : (bigEndian width value).length = width := bigEndian_length width value
    have room : octets.off + (bigEndian width value).length ≤ octets.buf.length := by
      rw [size]
      exact fits
    have appended := append_erase room
    rw [size] at appended
    rw [put, same]
    exact (congrArg (EStateM.Result.ok ()) appended).symm

theorem getVarint_refines : Refines getVarint Octets.getVarint := by
  refine (peekU_refines 1).bind fun first => refines_cap fun cap => .ite (refines_throw _) ?_
  rw [varintParseLen]
  split
  · exact getU_refines 1
  · exact (getU_refines 2).map _
  · exact (getU_refines 4).map _
  · exact (getU_refines 8).map _

theorem putMasked_refines (width value : Nat) (mask : UInt8) :
    Refines (putMasked width value mask) (Octets.putMasked (Octets.putU width value) mask) := by
  intro octets
  exact (putU_refines width value).bind (fun _ => fun _ => rfl) octets

theorem putVarintWithLen_refines (value len : Nat) :
    Refines (putVarintWithLen value len) (Octets.putVarintWithLen value len) := by
  apply @refines_cap _ _ fun cap => if cap < len then Octets.tooShort else _
  intro cap
  apply Refines.ite (refines_throw _)
  match len with
  | 1 => exact putU_refines 1 value
  | 2 => exact putMasked_refines 2 value 0x40
  | 4 => exact putMasked_refines 4 value 0x80
  | 8 => exact putMasked_refines 8 value 0xc0
  | 0 | 3 | 5 | 6 | 7 | _ + 9 => exact refines_throw _

theorem putVarint_refines (value : Nat) : Refines (putVarint value) (Octets.putVarint value) := by
  rw [putVarint, Octets.putVarint]
  cases varintLen value with
  | none => exact refines_throw _
  | some len => exact putVarintWithLen_refines value len

theorem getBytes_refines (len : Nat) : Refines (getBytes len) (Octets.getBytes len) := by
  intro octets
  rcases peekBytes_cases (erase_within octets) len with ⟨short, peeked⟩ | ⟨fits, peeked⟩
  · have small : octets.cap < len := by
      have beyond : octets.buf.length < octets.off + len := short
      have bounded := octets.off_le
      rw [Octets.cap]
      omega
    have same : Octets.getBytes len octets = .error (.error .bufferTooShort) octets := congrFun (if_pos small) octets
    rw [getBytes, bind_error peeked, same]
    rfl
  · have enough : ¬ octets.cap < len := by
      have inBuffer : octets.off + len ≤ octets.buf.length := fits
      rw [Octets.cap]
      omega
    have same : Octets.getBytes len octets = .ok (octets.rest.take len) (octets.advance len) :=
      congrFun (if_neg enough) octets
    have taken : (octets.buf.take (octets.off + len)).drop octets.off = octets.rest.take len := by
      rw [Octets.rest, List.drop_take, Nat.add_sub_cancel_left]
    rw [getBytes, bind_ok peeked, same, erased, advance_erase fits, ← taken]
    rfl

theorem putBytes_refines (bytes : List UInt8) : Refines (putBytes bytes) (Octets.putBytes bytes) := by
  intro octets
  rw [putBytes, bind_ok (cap_eq (erase_within octets))]
  by_cases short : octets.cap < bytes.length
  · rw [if_pos (by exact short)]
    have same : Octets.putBytes bytes octets = .error (.error .bufferTooShort) octets := congrFun (if_pos short) octets
    rw [same]
    rfl
  rw [if_neg (by exact short)]
  have fits := fits_of_not_short (erase_within octets) short
  by_cases empty : bytes.length = 0
  · have same : Octets.putBytes bytes octets = .ok () octets :=
      (congrFun (if_neg short) octets).trans (congrFun (if_pos empty) octets)
    rw [if_pos empty, same]
    rfl
  · have same : Octets.putBytes bytes octets = .ok () (octets.append bytes) :=
      (congrFun (if_neg short) octets).trans (congrFun (if_neg empty) octets)
    rw [if_neg empty, get_bind, bind_ok (store_eq fits), same, erased, append_erase fits]
    rfl

end RawOctets

/-- The calls that frames and headers are read and written with. -/
inductive FieldCall where
  | getU (width : Nat)
  | putU (width value : Nat)
  | getVarint
  | putVarint (value : Nat)
  | putVarintWithLen (value len : Nat)
  | getBytes (len : Nat)
  | putBytes (bytes : List UInt8)

namespace FieldCall

def raw : FieldCall → RawOctets.Action (Nat ⊕ List UInt8)
  | getU width => .inl <$> RawOctets.getU width
  | putU width value => (fun _ => .inr []) <$> RawOctets.putU width value
  | getVarint => .inl <$> RawOctets.getVarint
  | putVarint value => (fun _ => .inr []) <$> RawOctets.putVarint value
  | putVarintWithLen value len => (fun _ => .inr []) <$> RawOctets.putVarintWithLen value len
  | getBytes len => .inr <$> RawOctets.getBytes len
  | putBytes bytes => (fun _ => .inr []) <$> RawOctets.putBytes bytes

def checked : FieldCall → Octets.Action (Nat ⊕ List UInt8)
  | getU width => .inl <$> Octets.getU width
  | putU width value => (fun _ => .inr []) <$> Octets.putU width value
  | getVarint => .inl <$> Octets.getVarint
  | putVarint value => (fun _ => .inr []) <$> Octets.putVarint value
  | putVarintWithLen value len => (fun _ => .inr []) <$> Octets.putVarintWithLen value len
  | getBytes len => .inr <$> Octets.getBytes len
  | putBytes bytes => (fun _ => .inr []) <$> Octets.putBytes bytes

theorem raw_refines (call : FieldCall) : RawOctets.Refines call.raw call.checked := by
  cases call with
  | getU width => exact (RawOctets.getU_refines width).map _
  | putU width value => exact (RawOctets.putU_refines width value).map _
  | getVarint => exact RawOctets.getVarint_refines.map _
  | putVarint value => exact (RawOctets.putVarint_refines value).map _
  | putVarintWithLen value len => exact (RawOctets.putVarintWithLen_refines value len).map _
  | getBytes len => exact (RawOctets.getBytes_refines len).map _
  | putBytes bytes => exact (RawOctets.putBytes_refines bytes).map _

/-- Any sequence of calls has the same results on the cursor of the source and on the buffer that carries the bound of
its offset: values, errors and panics, and what they leave. -/
theorem cursor_refines_octets (calls : List FieldCall) : RawOctets.Refines (calls.mapM raw) (calls.mapM checked) := by
  induction calls with
  | nil => exact RawOctets.refines_pure []
  | cons call calls ih =>
    rw [List.mapM_cons, List.mapM_cons]
    exact (raw_refines call).bind fun value => ih.bind fun values => RawOctets.refines_pure (value :: values)

end FieldCall

end Quiche
