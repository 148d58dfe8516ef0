import Quiche.Data.Codec
import Quiche.Data.Endian
import Quiche.Error

namespace Quiche

open Data

/-- How a computation on a buffer ends early. -/
inductive Fault where
  | error (reason : Error)
  | panic
deriving DecidableEq, Repr

/-- A byte buffer with an offset; both `Octets` and `OctetsMut`. -/
structure Octets where
  buf : List UInt8
  off : Nat
  off_le : off ≤ buf.length
deriving DecidableEq

abbrev Octets.Action := EStateM Fault Octets

def maxVarInt : Nat := 4611686018427387903

/-- A value that a variable-length integer can carry. -/
abbrev Varint := { value : Nat // value < 2 ^ 62 }

/-- `none` is the `unreachable!` above `maxVarInt`. -/
def varintLen (value : Nat) : Option Nat :=
  if value ≤ 63 then some 1
  else if value ≤ 16383 then some 2
  else if value ≤ 1073741823 then some 4
  else if value ≤ maxVarInt then some 8
  else none

/-- The width of a variable-length integer by its first byte, whose top two bits
are all that `first >> 6` leaves. -/
def varintParseLen (first : Nat) : Nat :=
  match first >>> 6 with
  | 0 => 1
  | 1 => 2
  | 2 => 4
  | _ => 8

namespace Octets

def withSlice (buf : List UInt8) : Octets := ⟨buf, 0, Nat.zero_le _⟩

def cap (octets : Octets) : Nat := octets.buf.length - octets.off

/-- The bytes from the offset on (`as_ref`). -/
def rest (octets : Octets) : List UInt8 := octets.buf.drop octets.off

def written (octets : Octets) : List UInt8 := octets.buf.take octets.off

def advance (count : Nat) (octets : Octets) : Octets where
  buf := octets.buf
  off := min (octets.off + count) octets.buf.length
  off_le := Nat.min_le_right _ _

/-- Copies `output` to the offset and moves past it. The callers have checked that
it fits. -/
def append (output : List UInt8) (octets : Octets) : Octets :=
  if fits : output.length ≤ octets.cap then
    { buf := octets.written ++ output ++ octets.buf.drop (octets.off + output.length)
      off := octets.off + output.length
      off_le := by
        have := octets.off_le
        simp only [written, List.length_append, List.length_take, List.length_drop]
        omega }
  else octets

def tooShort {Value : Type} : Action Value := throw (.error .bufferTooShort)

/-- The big-endian integer in the next `width` bytes (`peek_u!`). -/
def peekU (width : Nat) : Action Nat := do
  let octets ← get
  if octets.cap < width then tooShort else pure (ofBigEndian (octets.rest.take width))

/-- `get_u!`: `peekU` and then past the bytes. -/
def getU (width : Nat) : Action Nat := do
  let out ← peekU width
  modify (advance width)
  pure out

/-- `put_u!`: the low `width` bytes of `value`. -/
def putU (width value : Nat) : Action Unit := do
  let octets ← get
  if octets.buf.length < octets.off + width then tooShort
  else modify (append (bigEndian width value))

def peekU8 : Action Nat := peekU 1
def getU8 : Action Nat := getU 1
def getU16 : Action Nat := getU 2
def getU24 : Action Nat := getU 3
def getU32 : Action Nat := getU 4
def getU64 : Action Nat := getU 8
def putU8 (value : Nat) : Action Unit := putU 1 value
def putU16 (value : Nat) : Action Unit := putU 2 value
def putU24 (value : Nat) : Action Unit := putU 3 value
def putU32 (value : Nat) : Action Unit := putU 4 value
def putU64 (value : Nat) : Action Unit := putU 8 value

/-- The `match` of `get_varint`: an integer of `len` bytes without its marking bits. -/
def getVarintOfLen : Nat → Action Nat
  | 1 => getU8
  | 2 => (· &&& 0x3fff) <$> getU16
  | 4 => (· &&& 0x3fffffff) <$> getU32
  | 8 => (· &&& 0x3fffffffffffffff) <$> getU64
  | _ => throw .panic

def getVarint : Action Nat := do
  let first ← peekU8
  let len := varintParseLen first
  if len > (← get).cap then tooShort
  else getVarintOfLen len

def orByte (place : Nat) (mask : UInt8) (octets : Octets) : Octets where
  buf := octets.buf.modify place (· ||| mask)
  off := octets.off
  off_le := by simpa using octets.off_le

/-- Writes with `put` and sets bits in the first byte of what it wrote. -/
def putMasked (put : Action Unit) (mask : UInt8) : Action Unit := do
  let start := (← get).off
  put
  modify (orByte start mask)

def putVarintWithLen (value len : Nat) : Action Unit := do
  if (← get).cap < len then tooShort
  else
    match len with
    | 1 => putU8 value
    | 2 => putMasked (putU16 value) 0x40
    | 4 => putMasked (putU32 value) 0x80
    | 8 => putMasked (putU64 value) 0xc0
    | _ => throw .panic

def putVarint (value : Nat) : Action Unit :=
  match varintLen value with
  | some len => putVarintWithLen value len
  | none => throw .panic

def getBytes (len : Nat) : Action (List UInt8) := do
  let octets ← get
  if octets.cap < len then tooShort
  else
    modify (advance len)
    pure (octets.rest.take len)

def getBytesWithVarintLength : Action (List UInt8) := do getBytes (← getVarint)

def putBytes (bytes : List UInt8) : Action Unit := do
  if (← get).cap < bytes.length then tooShort
  else if bytes.length = 0 then pure ()
  else modify (append bytes)

variable {octets : Octets}

theorem rest_length (octets : Octets) : octets.rest.length = octets.cap := by
  simp [rest, cap]

theorem written_length (octets : Octets) : octets.written.length = octets.off := by
  simpa [written] using octets.off_le

theorem ext_buf {left right : Octets} (sameBuf : left.buf = right.buf)
    (sameOff : left.off = right.off) : left = right := by
  cases left
  cases right
  simp_all

section Append

variable {output first second : List UInt8}

section

variable (fits : output.length ≤ octets.cap)

include fits

theorem append_off : (octets.append output).off = octets.off + output.length := by
  rw [append, dif_pos fits]

theorem append_buf :
    (octets.append output).buf = octets.written ++ output ++ octets.buf.drop (octets.off + output.length) := by
  rw [append, dif_pos fits]

theorem append_cap : (octets.append output).cap + output.length = octets.cap := by
  have := octets.off_le
  have := octets.written_length
  simp only [cap] at fits
  simp only [cap, append_buf fits, append_off fits, List.length_append, List.length_drop]
  omega

theorem append_written :
    (octets.append output).written = octets.written ++ output := by
  have length : (octets.written ++ output).length = octets.off + output.length := by
    rw [List.length_append, written_length]
  rw [written, append_off fits, append_buf fits, ← length, List.take_left]

end

theorem append_append (fits : first.length + second.length ≤ octets.cap) :
    (octets.append first).append second = octets.append (first ++ second) := by
  have fitsFirst : first.length ≤ octets.cap := by omega
  have left := append_cap fitsFirst
  have fitsSecond : second.length ≤ (octets.append first).cap := by omega
  have fitsBoth : (first ++ second).length ≤ octets.cap := by rwa [List.length_append]
  have prefixed : (octets.written ++ first).length = octets.off + first.length := by
    rw [List.length_append, written_length]
  have dropped : (octets.append first).buf.drop (octets.off + first.length + second.length) =
      octets.buf.drop (octets.off + first.length + second.length) := by
    rw [append_buf fitsFirst, ← List.drop_drop, ← prefixed, List.drop_left, prefixed, List.drop_drop]
  apply ext_buf
  · rw [append_buf fitsSecond, append_buf fitsBoth, append_written fitsFirst, append_off fitsFirst,
      dropped, List.length_append, Nat.add_assoc, List.append_assoc octets.written]
  · rw [append_off fitsSecond, append_off fitsBoth, append_off fitsFirst, List.length_append, Nat.add_assoc]

theorem append_nil (octets : Octets) : octets.append [] = octets := by
  have fits : ([] : List UInt8).length ≤ octets.cap := Nat.zero_le _
  apply ext_buf
  · simp [append_buf fits, written]
  · simp [append_off fits]

end Append

/-- Reading from a buffer. -/
def cursor : Cursor Octets UInt8 where
  rest := rest
  advance := advance
  rest_advance := by
    intro count octets
    cases Nat.le_total (octets.off + count) octets.buf.length with
    | inl short => simp [rest, advance, short]
    | inr long => simp [rest, advance, long]
  advance_zero := by
    intro octets
    exact ext_buf rfl (by simpa [advance] using octets.off_le)
  advance_advance := by
    intro first second octets
    exact ext_buf rfl (by simp only [advance]; omega)

/-- Writing into a buffer. -/
def tape : Tape Octets UInt8 where
  room := cap
  append := append
  room_append := fun _ _ fits => append_cap fits
  append_nil := append_nil
  append_append := fun _ _ _ fits => append_append fits

end Octets

end Quiche
