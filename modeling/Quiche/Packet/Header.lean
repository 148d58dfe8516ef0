import Quiche.Packet
import Quiche.Packet.Number

namespace Quiche.Packet

open Data Octets

def formBit : UInt8 := 0x80
def fixedBit : UInt8 := 0x40
def keyPhaseBit : UInt8 := 0x04
def typeMask : UInt8 := 0x30

def protocolVersion : UInt32 := 0x00000001

def versionIsSupported (version : UInt32) : Bool := version == protocolVersion

/-- `RETRY_AEAD_ALG.tag_len()` -/
def retryTagLen : Nat := 16

/-- A packet's header. The length of the packet number is 0 or comes from `pkt_num_len`. -/
structure Header where
  ty : PacketType
  version : UInt32
  dcid : List UInt8
  scid : List UInt8
  pktNum : Nat
  pktNumLen : Nat
  token : Option (List UInt8)
  versions : Option (List UInt32)
  keyPhase : Bool
  pktNumLen_le : pktNumLen ≤ 8
deriving DecidableEq

namespace Header

def isLong (first : UInt8) : Bool := first &&& formBit != 0

def invalidPacket {Value : Type} : Action Value := throw (.error .invalidPacket)

def getCid (version : UInt32) : Action (List UInt8) := do
  let cidLen ← getU8
  if versionIsSupported version ∧ cidLen > maxCidLen then invalidPacket
  else getBytes cidLen

def typeOf (first : UInt8) (version : UInt32) : Action PacketType :=
  if version = 0 then pure .versionNegotiation
  else
    match (first &&& typeMask) >>> 4 with
    | 0x00 => pure .initial
    | 0x01 => pure .zeroRTT
    | 0x02 => pure .handshake
    | 0x03 => pure .retry
    | _ => invalidPacket

def getInvariants (first : UInt8) : Action (PacketType × UInt32 × List UInt8 × List UInt8) := do
  let version := UInt32.ofNat (← getU32)
  let ty ← typeOf first version
  let dcid ← getCid version
  let scid ← getCid version
  return (ty, version, dcid, scid)

/-- The `while` loop over the listed versions; every turn takes four bytes, so the bytes left
bound the turns. -/
def getVersions : Nat → List UInt32 → Action (List UInt32)
  | 0, _ => throw .panic
  | fuel + 1, list => do
    if (← get).cap > 0 then do
      let version ← getU32
      getVersions fuel (list ++ [UInt32.ofNat version])
    else pure list

def getRetryToken : Action (List UInt8) := do
  let cap := (← get).cap
  if cap < retryTagLen then invalidPacket
  else getBytes (cap - retryTagLen)

def getRest (ty : PacketType) : Action (Option (List UInt8) × Option (List UInt32)) :=
  match ty with
  | .initial => do return (some (← getBytesWithVarintLength), none)
  | .retry => do return (some (← getRetryToken), none)
  | .versionNegotiation => do return (none, some (← getVersions ((← get).cap + 1) []))
  | _ => pure (none, none)

def parsed (ty : PacketType) (version : UInt32) (dcid scid : List UInt8) (token : Option (List UInt8))
    (versions : Option (List UInt32)) : Header where
  ty := ty
  version := version
  dcid := dcid
  scid := scid
  pktNum := 0
  pktNumLen := 0
  token := token
  versions := versions
  keyPhase := false
  pktNumLen_le := Nat.zero_le _

def fromBytes (dcidLen : Nat) : Action Header := do
  let first := UInt8.ofNat (← getU8)
  if ¬ isLong first then do
    let dcid ← getBytes dcidLen
    return parsed .short 0 dcid [] none none
  else do
    let (ty, version, dcid, scid) ← getInvariants first
    let (token, versions) ← getRest ty
    return parsed ty version dcid scid token versions

def lenBits (header : Header) : UInt8 := UInt8.ofNat (header.pktNumLen - 1)

def shortFirst (header : Header) : UInt8 :=
  let first := header.lenBits &&& ~~~ formBit ||| fixedBit
  if header.keyPhase then first ||| keyPhaseBit else first &&& ~~~ keyPhaseBit

def typeBits : PacketType → Action UInt8
  | .initial => pure 0x00
  | .zeroRTT => pure 0x01
  | .handshake => pure 0x02
  | .retry => pure 0x03
  | _ => invalidPacket

def longFirst (header : Header) (bits : UInt8) : UInt8 := header.lenBits ||| (formBit ||| fixedBit ||| bits <<< 4)

def putCid (cid : List UInt8) : Action Unit := do
  putU8 (UInt8.ofNat cid.length).toNat
  putBytes cid

def putToken (header : Header) : Action Unit :=
  match header.ty with
  | .initial =>
    match header.token with
    | some token => do
      putVarint token.length
      putBytes token
    | none => putVarint 0
  | .retry =>
    match header.token with
    | some token => putBytes token
    | none => throw .panic
  | _ => pure ()

def toBytes (header : Header) : Action Unit :=
  if header.ty = .short then do
    putU8 header.shortFirst.toNat
    putBytes header.dcid
  else do
    let bits ← typeBits header.ty
    putU8 (header.longFirst bits).toNat
    putU32 header.version.toNat
    putCid header.dcid
    putCid header.scid
    header.putToken

end Header

end Quiche.Packet
