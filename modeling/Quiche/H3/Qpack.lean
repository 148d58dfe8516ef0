import Quiche.H3
import Quiche.H3.Qpack.StaticTable
import Quiche.Octets.Huffman

namespace Quiche.H3

/-- A header, as `NameValue` and as `Header`. -/
structure Header where
  name : List UInt8
  value : List UInt8
deriving DecidableEq

namespace Qpack

inductive Error where
  | bufferTooShort
  | invalidHuffmanEncoding
  | invalidStaticTableIndex
  | invalidHeaderValue
  | headerListTooLarge
deriving DecidableEq

inductive Failure where
  | error (error : Error)
  | panic
deriving DecidableEq

abbrev Action := EStateM Failure Octets

def fail {Value : Type} (error : Error) : Action Value := throw (.error error)

/-- The only error of `Octets` is a buffer that is too short. -/
def ofFault : Fault → Failure
  | .error _ => .error .bufferTooShort
  | .panic => .panic

abbrev octets {Value : Type} (call : Octets.Action Value) : Action Value := call.adaptExcept ofFault

def indexed : Nat := 0x80
def indexedWithPostBase : Nat := 0x10
def literal : Nat := 0x20
def literalWithNameRef : Nat := 0x40

def bytes (text : String) : List UInt8 := text.toUTF8.data.toList

section Encoder

def cmpLowercase (name header : List UInt8) : Bool :=
  (name.zip header).all fun (left, right) => left == toAsciiLowercase right

/-- The loop over the possible values of a header. -/
def lookupValue (value : List UInt8) : ValueEncPairs → Option (Option (Nat × Bool))
  | [] => none
  | (known, enc) :: rest =>
    if (bytes known).isEmpty then some (some (enc, false))
    else if value = bytes known then some (some (enc, true))
    else lookupValue value rest

/-- The loop over the names of one length. -/
def lookupName (h : Header) : List (String × ValueEncPairs) → Option (Nat × Bool)
  | [] => none
  | (name, values) :: rest =>
    if cmpLowercase (bytes name) h.name then
      match lookupValue h.value values with
      | some found => found
      -- Only matched the header, not the value.
      | none => values.head?.map fun first => (first.2, false)
    else lookupName h rest

def lookupStatic (h : Header) : Option (Nat × Bool) := do
  let tableForLen ← staticEncodeTable[h.name.length]?
  lookupName h tableForLen

/-- The loop of `encode_int`, and the byte behind it. -/
def encodeRest (v : Nat) : Octets.Action Unit :=
  if 128 ≤ v then do
    Octets.putU8 (v % 128 + 128)
    encodeRest (v >>> 7)
  else Octets.putU8 v
termination_by v
decreasing_by
  rw [Nat.shiftRight_eq_div_pow]
  omega

def encodeInt (v first width : Nat) : Octets.Action Unit :=
  let mask := 2 ^ width - 1
  if v < mask then Octets.putU8 (first ||| v)
  else do
    Octets.putU8 (first ||| mask)
    encodeRest (v - mask)

def encodeStr (lowerCase : Bool) (v : List UInt8) (first width : Nat) : Octets.Action Unit :=
  match Octets.huffmanEncodingLen lowerCase v with
  | .ok len => do
    encodeInt len (first ||| 1 <<< width) width
    Octets.putHuffmanEncoded lowerCase v
  | .error (.error _) => do
    encodeInt v.length first width
    Octets.putBytes (v.map (Octets.fold lowerCase))
  | .error .panic => throw .panic

def encodeHeader (h : Header) : Octets.Action Unit :=
  match lookupStatic h with
  -- Encode as statically indexed.
  | some (idx, true) => encodeInt idx (indexed ||| 0x40) 6
  -- Encode value as literal with static name reference.
  | some (idx, false) => do
    encodeInt idx (literalWithNameRef ||| 0x10) 4
    encodeStr false h.value 0 7
  -- Encode as fully literal.
  | none => do
    encodeStr true h.name literal 3
    encodeStr false h.value 0 7

def encode (headers : List Header) : Action Nat := do
  octets (encodeInt 0 0 8)
  octets (encodeInt 0 0 7)
  headers.forM fun h => octets (encodeHeader h)
  return (← get).off

end Encoder

section Decoder

inductive Representation where
  | indexed
  | indexedWithPostBase
  | literal
  | literalWithNameRef
  | literalWithPostBase
deriving DecidableEq

def Representation.fromByte (b : Nat) : Representation :=
  if b &&& Qpack.indexed = Qpack.indexed then .indexed
  else if b &&& Qpack.literalWithNameRef = Qpack.literalWithNameRef then .literalWithNameRef
  else if b &&& Qpack.literal = Qpack.literal then .literal
  else if b &&& Qpack.indexedWithPostBase = Qpack.indexedWithPostBase then .indexedWithPostBase
  else .literalWithPostBase

/-- The loop of `decode_int`; each turn takes a byte. -/
def decodeRest : Nat → Nat → Nat → Action Nat
  | 0, _, _ => fail .bufferTooShort
  | left + 1, val, shift => do
    let byte ← octets Octets.getU8
    -- `checked_shl` looks at the distance only.
    if 64 ≤ shift then fail .bufferTooShort
    else
      match addU64 val (shlU64 (byte &&& 0x7f) shift) with
      | none => fail .bufferTooShort
      | some val => if byte &&& 0x80 = 0 then pure val else decodeRest left val (shift + 7)

def decodeInt (width : Nat) : Action Nat := do
  let mask := 2 ^ width - 1
  let first ← octets Octets.getU8
  let val := first &&& mask
  if val < mask then pure val else decodeRest (← get).cap val 0

def decodeBytes (huff : Bool) (val : List UInt8) : Action (List UInt8) :=
  if huff then
    match Octets.getHuffmanDecoded (.withSlice val) with
    | .ok text _ => pure text
    | .error (.error _) _ => fail .bufferTooShort
    | .error .panic _ => throw .panic
  else pure val

def decodeStr : Action (List UInt8) := do
  let first ← octets Octets.peekU8
  let len ← decodeInt 7
  let val ← octets (Octets.getBytes len)
  decodeBytes (first &&& 0x80 = 0x80) val

def lookupStaticIndex (idx : Nat) : Action Header :=
  match staticDecodeTable[idx]? with
  | none => fail .invalidStaticTableIndex
  | some (name, value) => pure ⟨bytes name, bytes value⟩

def decodeHeader : Action Header := do
  let first ← octets Octets.peekU8
  match Representation.fromByte first with
  | .indexed => do
    let index ← decodeInt 6
    if first &&& 0x40 = 0x40 then lookupStaticIndex index else fail .invalidHeaderValue
  | .indexedWithPostBase => do
    let _ ← decodeInt 4
    fail .invalidHeaderValue
  | .literal => do
    let nameLen ← decodeInt 3
    let name ← octets (Octets.getBytes nameLen)
    let name ← decodeBytes (first &&& 0x08 = 0x08) name
    let value ← decodeStr
    return ⟨name, value⟩
  | .literalWithNameRef => do
    let nameIdx ← decodeInt 4
    let value ← decodeStr
    if first &&& 0x10 = 0x10 then do
      let known ← lookupStaticIndex nameIdx
      return ⟨known.name, value⟩
    else fail .invalidHeaderValue
  | .literalWithPostBase => fail .invalidHeaderValue

/-- The loop of `decode`; each turn takes a byte at least. -/
def decodeHeaders : Nat → Nat → List Header → Action (List Header)
  | 0, _, out => pure out
  | turns + 1, left, out => do
    if (← get).cap > 0 then do
      let hdr ← decodeHeader
      match subChecked left (hdr.name.length + hdr.value.length) with
      | none => fail .headerListTooLarge
      | some left => decodeHeaders turns left (out ++ [hdr])
    else pure out

def decode (buf : List UInt8) (maxSize : Nat) : Except Failure (List Header) :=
  let run : Action (List Header) := do
    let _ ← decodeInt 8
    let _ ← decodeInt 7
    decodeHeaders (← get).cap maxSize []
  match run (.withSlice buf) with
  | .ok headers _ => .ok headers
  | .error failure _ => .error failure

end Decoder

/-- `Connection::encode_header_block` -/
def encodeHeaderBlock (headers : List Header) : Except H3.Failure (List UInt8) :=
  match headers.foldlM (fun acc h => addU64 acc (h.value.length + h.name.length + 32)) 0 with
  | none => .error .panic
  | some headersLen =>
    match encode headers (.withSlice (.replicate headersLen 0)) with
    | .ok len block => .ok (block.buf.take len)
    | .error (.error _) _ => .error (.error .internalError)
    | .error .panic _ => .error .panic

end Qpack

end Quiche.H3
