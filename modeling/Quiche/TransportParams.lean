import Quiche.Cid
import Quiche.Stream.Map

namespace Quiche

open Data Octets

structure UnknownTransportParameter where
  id : Nat
  value : List UInt8
deriving DecidableEq

structure UnknownTransportParameters where
  capacity : Nat
  parameters : List UnknownTransportParameter
deriving DecidableEq

/-- Keeps a parameter if there is space for it; the caller ignores whether there was. -/
def UnknownTransportParameters.push (unknown : UnknownTransportParameters)
    (new : UnknownTransportParameter) : UnknownTransportParameters :=
  let newUnknownTpSize := new.value.length + 8
  if newUnknownTpSize < unknown.capacity then
    { capacity := unknown.capacity - newUnknownTpSize
      parameters := unknown.parameters ++ [new] }
  else unknown

/-- Every parameter that an endpoint announces, with the limits of `TransportParams`. -/
structure AllTransportParams extends TransportParams where
  originalDestinationConnectionId : Option (List UInt8)
  maxIdleTimeout : Nat
  statelessResetToken : Option (BitVec 128)
  maxUdpPayloadSize : Nat
  ackDelayExponent : Nat
  maxAckDelay : Nat
  disableActiveMigration : Bool
  initialSourceConnectionId : Option (List UInt8)
  retrySourceConnectionId : Option (List UInt8)
  maxDatagramFrameSize : Option Nat
  unknownParams : Option UnknownTransportParameters
deriving DecidableEq

namespace AllTransportParams

def default : AllTransportParams where
  toTransportParams := .default
  originalDestinationConnectionId := none
  maxIdleTimeout := 0
  statelessResetToken := none
  maxUdpPayloadSize := 65527
  ackDelayExponent := 3
  maxAckDelay := 25
  disableActiveMigration := false
  initialSourceConnectionId := none
  retrySourceConnectionId := none
  maxDatagramFrameSize := none
  unknownParams := none

section Decode

def fromValue {Value : Type} (val : List UInt8) (read : Action Value) : Action Value :=
  match read (withSlice val) with
  | .ok value _ => pure value
  | .error fault _ => throw fault

def invalid {Value : Type} : Action Value := throw (.error .invalidTransportParam)

def fromServer (isServer : Bool) (next : Action AllTransportParams) : Action AllTransportParams :=
  if isServer then invalid else next

/-- An integer that the parameter's check lets pass. -/
def integerValue (val : List UInt8) (accepts : Nat → Bool) : Action Nat := do
  let value ← fromValue val getVarint
  if accepts value then pure value else invalid

def fromBeBytes (bytes : List UInt8) : BitVec 128 := .ofNat 128 (ofBigEndian bytes)

/-- The `match` on the identifier of a parameter. -/
def decodeParam (isServer : Bool) (tp : AllTransportParams) (id : Nat) (val : List UInt8) : Action AllTransportParams :=
  match id with
  | 0x00 => fromServer isServer (pure { tp with originalDestinationConnectionId := some val })
  | 0x01 => do pure { tp with maxIdleTimeout := ← fromValue val getVarint }
  | 0x02 => fromServer isServer do
      let token ← fromValue val (getBytes 16)
      pure { tp with statelessResetToken := some (fromBeBytes token) }
  | 0x03 => do pure { tp with maxUdpPayloadSize := ← integerValue val (1200 ≤ ·) }
  | 0x04 => do pure { tp with initialMaxData := ← fromValue val getVarint }
  | 0x05 => do pure { tp with initialMaxStreamDataBidiLocal := ← fromValue val getVarint }
  | 0x06 => do pure { tp with initialMaxStreamDataBidiRemote := ← fromValue val getVarint }
  | 0x07 => do pure { tp with initialMaxStreamDataUni := ← fromValue val getVarint }
  | 0x08 => do pure { tp with initialMaxStreamsBidi := ← integerValue val (· ≤ 2 ^ 60) }
  | 0x09 => do pure { tp with initialMaxStreamsUni := ← integerValue val (· ≤ 2 ^ 60) }
  | 0x0a => do pure { tp with ackDelayExponent := ← integerValue val (· ≤ 20) }
  | 0x0b => do pure { tp with maxAckDelay := ← integerValue val (· < 2 ^ 14) }
  | 0x0c => pure { tp with disableActiveMigration := true }
  | 0x0d => fromServer isServer (pure tp)
  | 0x0e => do pure { tp with activeConnIdLimit := ← integerValue val (2 ≤ ·) }
  | 0x0f => pure { tp with initialSourceConnectionId := some val }
  | 0x10 => fromServer isServer (pure { tp with retrySourceConnectionId := some val })
  | 0x20 => do pure { tp with maxDatagramFrameSize := some (← fromValue val getVarint) }
  | unknownTpId =>
    pure { tp with unknownParams := tp.unknownParams.map (·.push ⟨unknownTpId, val⟩) }

/-- The `while` loop; every turn takes at least a byte, so the capacity bounds the turns. -/
def decodeParams (isServer : Bool) : Nat → List Nat → AllTransportParams → Action AllTransportParams
  | 0, _, tp => pure tp
  | fuel + 1, seenParams, tp => do
    if (← get).cap = 0 then pure tp
    else
      let id ← getVarint
      if id ∈ seenParams then invalid
      else
        let val ← getBytesWithVarintLength
        let tp ← decodeParam isServer tp id val
        decodeParams isServer fuel (id :: seenParams) tp

def decode (buf : List UInt8) (isServer : Bool) (unknownSize : Option Nat) : Except Fault AllTransportParams :=
  let tp := { default with unknownParams := unknownSize.map fun capacity => ⟨capacity, []⟩ }
  match decodeParams isServer buf.length [] tp (withSlice buf) with
  | .ok tp _ => .ok tp
  | .error fault _ => .error fault

end Decode

section Encode

def encodeParam (ty len : Nat) : Action Unit := do
  putVarint ty
  putVarint len

/-- The assertion on an integer comes before its length, which has no value beyond it. -/
def encodeInteger (ty value : Nat) : Action Unit :=
  match varintLen value with
  | some len => do
    encodeParam ty len
    putVarint value
  | none => throw .panic

/-- An integer that is left out where it equals `absent`. -/
def encodeUnless (absent ty value : Nat) : Action Unit :=
  if value ≠ absent then encodeInteger ty value else pure ()

def encodeBytes (ty : Nat) (bytes : List UInt8) : Action Unit := do
  encodeParam ty bytes.length
  putBytes bytes

def encodeOption {Value : Type} (encode : Value → Action Unit) : Option Value → Action Unit
  | some value => encode value
  | none => pure ()

/-- A parameter without a value. -/
def encodeFlag (ty : Nat) (present : Bool) : Action Unit :=
  if present then encodeParam ty 0 else pure ()

def whenServer (isServer : Bool) (encode : Action Unit) : Action Unit :=
  if isServer then encode else pure ()

def encodeParams (tp : AllTransportParams) (isServer : Bool) : Action Unit := do
  whenServer isServer (encodeOption (encodeBytes 0x00) tp.originalDestinationConnectionId)
  encodeUnless 0 0x01 tp.maxIdleTimeout
  whenServer isServer (encodeOption
    (fun token => encodeBytes 0x02 (ConnectionIdentifiers.toBeBytes token).toList)
    tp.statelessResetToken)
  encodeUnless 0 0x03 tp.maxUdpPayloadSize
  encodeUnless 0 0x04 tp.initialMaxData
  encodeUnless 0 0x05 tp.initialMaxStreamDataBidiLocal
  encodeUnless 0 0x06 tp.initialMaxStreamDataBidiRemote
  encodeUnless 0 0x07 tp.initialMaxStreamDataUni
  encodeUnless 0 0x08 tp.initialMaxStreamsBidi
  encodeUnless 0 0x09 tp.initialMaxStreamsUni
  encodeUnless 0 0x0a tp.ackDelayExponent
  encodeUnless 0 0x0b tp.maxAckDelay
  encodeFlag 0x0c tp.disableActiveMigration
  encodeUnless 2 0x0e tp.activeConnIdLimit
  encodeOption (encodeBytes 0x0f) tp.initialSourceConnectionId
  whenServer isServer (encodeOption (encodeBytes 0x10) tp.retrySourceConnectionId)
  encodeOption (encodeInteger 0x20) tp.maxDatagramFrameSize

/-- The part of `out` that holds the parameters. -/
def encode (tp : AllTransportParams) (isServer : Bool) (out : List UInt8) : Except Fault (List UInt8) :=
  match tp.encodeParams isServer (withSlice out) with
  | .ok () octets => .ok octets.written
  | .error fault _ => .error fault

end Encode

end AllTransportParams

end Quiche
