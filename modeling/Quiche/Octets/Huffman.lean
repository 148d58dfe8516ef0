import Quiche.Octets
import Quiche.Octets.HuffmanTable

namespace Quiche

def toAsciiLowercase (byte : UInt8) : UInt8 := if 65 ≤ byte ∧ byte ≤ 90 then byte + 32 else byte

/-- `<<` on `u64` -/
def shlU64 (value count : Nat) : Nat := value <<< count % 2 ^ 64

namespace Octets

def fold (lowerCase : Bool) (byte : UInt8) : UInt8 := if lowerCase then toAsciiLowercase byte else byte

def encodeEntry (byte : UInt8) : Nat × Nat := encodeTable.getD byte.toNat (0, 0)

section Encode

variable (lowerCase : Bool)

def huffmanEncodingLen (src : List UInt8) : Except Fault Nat :=
  match src.foldlM (fun bits byte => addU64 bits (encodeEntry (fold lowerCase byte)).1) 0 with
  | none => .error .panic
  | some bits =>
    let len := if bits &&& 7 ≠ 0 then bits / 8 + 1 else bits / 8
    if len > src.length then .error (.error .bufferTooShort) else .ok len

def putHuffmanBits : List UInt8 → Nat → Nat → Action (Nat × Nat)
  | [], bits, pending => pure (bits, pending)
  | byte :: rest, bits, pending =>
    let (nbits, code) := encodeEntry (fold lowerCase byte)
    let pending := pending + nbits
    if pending < 64 then
      -- Have room for the new token
      putHuffmanBits rest (bits ||| shlU64 code (64 - pending)) pending
    else do
      let pending := pending - 64
      -- Take only the bits that fit
      putU64 (bits ||| code >>> pending)
      putHuffmanBits rest (if pending = 0 then 0 else shlU64 code (64 - pending)) pending

/-- The last loop, for `count` bytes. -/
def putLowBytes (bits : Nat) : Nat → Action Unit
  | 0 => pure ()
  | count + 1 => do
    putU8 (bits >>> (8 * count))
    putLowBytes bits count

def putPending (bits pending : Nat) : Action Unit :=
  if pending = 0 then pure ()
  else
    let bits := bits ||| (2 ^ 64 - 1) >>> pending
    -- Round up to a byte
    let count := (pending + 7) / 8
    let bits := bits >>> (64 - 8 * count)
    if 4 ≤ count then do
      putU32 (bits >>> (8 * (count - 4)))
      putLowBytes bits (count - 4)
    else putLowBytes bits count

def putHuffmanEncoded (bytes : List UInt8) : Action Unit := do
  let (bits, pending) ← putHuffmanBits lowerCase bytes 0 0
  putPending bits pending

end Encode

section Decode

def flagEnd : Nat := 1
def flagSym : Nat := 2
def flagErr : Nat := 4

structure HuffmanDecoder where
  state : Nat
  eos : Bool
  out : List UInt8

def decodeHalf (decoder : HuffmanDecoder) (data : Nat) : Action HuffmanDecoder :=
  match decodeTable[decoder.state]?.bind (·[data]?) with
  | none => throw .panic
  | some (next, sym, flags) =>
    -- Data followed the "end" marker.
    if flags &&& flagErr = flagErr then tooShort
    else pure {
      state := next
      eos := flags &&& flagEnd = flagEnd
      out := if flags &&& flagSym = flagSym then decoder.out ++ [UInt8.ofNat sym] else decoder.out }

def decodeByte (decoder : HuffmanDecoder) (byte : Nat) : Action HuffmanDecoder := do
  let middle ← decodeHalf decoder (byte >>> 4)
  decodeHalf middle (byte &&& 0xf)

def decodeBytes : Nat → HuffmanDecoder → Action HuffmanDecoder
  | 0, decoder => pure decoder
  | left + 1, decoder => do
    let byte ← getU8
    decodeBytes left (← decodeByte decoder byte)

def getHuffmanDecoded : Action (List UInt8) := do
  let decoder ← decodeBytes (← get).cap ⟨0, false, []⟩
  if decoder.state ≠ 0 ∧ ¬ decoder.eos then tooShort else pure decoder.out

end Decode

end Octets

end Quiche
