import Quiche.Ranges
import Quiche.RangeBuf

namespace Quiche

def sendBufferSize : Nat := 4096

/-- The send side of a stream: a queue of buffers in offset order, with the index
of the one to send next. `isShutdown` is the source's field `shutdown`. -/
structure SendBuf where
  data : List RangeBuf
  pos : Nat
  off : Nat
  emitOff : Nat
  len : Nat
  maxData : Nat
  blockedAt : Option Nat
  finOff : Option Nat
  isShutdown : Bool
  acked : RangeSet
  error : Option Nat
deriving DecidableEq

/-- The space that `reserve_for_write` found, with the buffer it is reserved in. -/
structure SendReserve where
  inner : SendBuf
  reserved : Nat
  fin : Bool

namespace SendReserve

def appendBuf (reserve : SendReserve) (buf : List UInt8) : Except Error SendReserve :=
  let len := buf.length
  let inner := reserve.inner
  if len > reserve.reserved then .error .bufferTooShort
  else
    let fin := reserve.reserved == len && reserve.fin
    .ok
      { reserve with
        inner :=
          { inner with
            data := inner.data ++ [.fromBytes buf inner.off fin]
            off := inner.off + len
            len := inner.len + len }
        reserved := reserve.reserved - len }

def appendBufs (reserve : SendReserve) : List (List UInt8) → Except Error SendReserve
  | [] => .ok reserve
  | buf :: rest => do (← reserve.appendBuf buf).appendBufs rest

/-- `Drop`: everything that was reserved has to be filled; `none` is the failed
assertion. -/
def finish (reserve : SendReserve) : Option SendBuf :=
  if reserve.reserved = 0 then some reserve.inner else none

end SendReserve

namespace SendBuf

/-! As in `RecvBuf`, `none` is a panic, and a method returns the new `self` next to
its `Result`. Offsets are stream offsets: the peer grants less than `2 ^ 62` of them
and a slice has at most `2 ^ 63` bytes, so that no sum of the two overflows. -/

def new (maxData : Nat) : SendBuf where
  data := []
  pos := 0
  off := 0
  emitOff := 0
  len := 0
  maxData := maxData
  blockedAt := none
  finOff := none
  isShutdown := false
  acked := .default
  error := none

def firstStop (ranges : List (Nat × Nat)) : Nat :=
  match ranges with
  | (0, stop) :: _ => stop
  | _ => 0

def ackOff (send : SendBuf) : Nat := firstStop send.acked.iter

def cap (send : SendBuf) : Option (Except Error Nat) :=
  match send.error with
  | some code => some (.error (.streamStopped code))
  | none => (subChecked send.maxData send.off).map .ok

def offBack (send : SendBuf) : Nat := send.off

def maxOff (send : SendBuf) : Nat := send.maxData

def isEmpty (send : SendBuf) : Bool := send.data.isEmpty

def isStopped (send : SendBuf) : Bool := send.error.isSome

def isFin (send : SendBuf) : Bool := send.finOff == some send.off

def isComplete (send : SendBuf) : Bool :=
  match send.finOff with
  | some finOff => send.acked.eqRange 0 finOff
  | none => false

/-- The first offset that was not read yet, from the cursor on. -/
def offFront (send : SendBuf) : Nat :=
  match (send.data.drop send.pos).find? fun buf => !buf.isEmpty with
  | some buf => buf.off
  | none => send.off

def breaksFinal (finOff : Option Nat) (maxOff : Nat) (fin : Bool) : Bool :=
  match finOff with
  | some finOff => maxOff > finOff || (maxOff == finOff && !fin)
  | none => false

def reserveForWrite (send : SendBuf) (len : Nat) (fin : Bool) : Option (Except Error SendReserve) :=
  let maxOff := send.off + len
  match send.cap with
  | none => none
  | some (.error error) => some (.error error)
  | some (.ok cap) =>
    let fin := if len > cap then false else fin
    let len := if len > cap then cap else len
    if breaksFinal send.finOff maxOff fin then some (.error .finalSize)
    else
      let send := if fin then { send with finOff := some maxOff } else send
      -- Data that was acknowledged already is not queued again.
      let reserved := if send.ackOff ≥ maxOff then 0 else len
      some (.ok ⟨send, reserved, fin⟩)

/-- `data.chunks(size)`; the fuel is the length of the slice. -/
def chunks (size : Nat) : Nat → List UInt8 → List (List UInt8)
  | 0, _ => []
  | _, [] => []
  | fuel + 1, bytes => bytes.take size :: chunks size fuel (bytes.drop size)

/-- A failed reservation leaves `self` as it was. -/
def write (send : SendBuf) (data : List UInt8) (fin : Bool) : Option (SendBuf × Except Error Nat) := do
  match ← send.reserveForWrite data.length fin with
  | .error error => return (send, .error error)
  | .ok reserve =>
    if reserve.reserved = 0 then return (← reserve.finish, .ok 0)
    match reserve.appendBufs
        (chunks sendBufferSize data.length (data.take reserve.reserved)) with
    | .error _ => none
    | .ok filled => return (← filled.finish, .ok reserve.reserved)

/-- `append_buf` with the part of `data` that was not taken. -/
def appendBuf (send : SendBuf) (data : List UInt8) (cap : Nat) (fin : Bool) :
    Option (SendBuf × Except Error (Nat × Option (List UInt8))) := do
  match ← send.reserveForWrite (min cap data.length) fin with
  | .error error => return (send, .error error)
  | .ok reserve =>
    if reserve.reserved = 0 then return (← reserve.finish, .ok (0, some data))
    let remainder := if reserve.reserved < data.length then some (data.drop reserve.reserved) else none
    match reserve.appendBuf (data.take reserve.reserved) with
    | .error _ => none
    | .ok filled => return (← filled.finish, .ok (reserve.reserved, remainder))

/-- The `while` loop of `emit`: every turn but the last moves the cursor, so the
number of buffers bounds the turns. Yields what was copied to the output and the
offset after it. -/
def emitLoop : Nat → SendBuf → Nat → Nat → List UInt8 → Option (SendBuf × Nat × List UInt8)
  | 0, _, _, _, _ => none
  | fuel + 1, send, outLen, nextOff, out =>
    if outLen = 0 then some (send, nextOff, out)
    else if send.data.isEmpty ∨ send.offFront ≥ send.off ∨ send.offFront ≠ nextOff ∨
        send.offFront ≥ send.maxData then some (send, nextOff, out)
    else
      match send.data[send.pos]? with
      | none => some (send, nextOff, out)
      | some buf =>
        if buf.isEmpty then emitLoop fuel { send with pos := send.pos + 1 } outLen nextOff out
        else
          let bufLen := min buf.len outLen
          let isPartial := bufLen < buf.len
          let data := send.data.set send.pos (buf.consume bufLen (buf.min_len_le outLen))
          match subChecked send.len bufLen with
          | none => none
          | some len =>
            let out := out ++ buf.bytes.take bufLen
            let nextOff := buf.off + bufLen
            if isPartial then some ({ send with data := data, len := len }, nextOff, out)
            else
              emitLoop fuel { send with data := data, len := len, pos := send.pos + 1 }
                (outLen - bufLen) nextOff out

/-- Fills an output of `outLen` bytes; yields what was written to it and whether it
reaches the final offset. -/
def emit (send : SendBuf) (outLen : Nat) : Option (SendBuf × List UInt8 × Bool) := do
  let (send, nextOff, out) ←
    emitLoop (send.data.length - send.pos + 1) send outLen send.offFront []
  let fin := send.finOff == some nextOff
  return ({ send with emitOff := max send.emitOff nextOff }, out, fin)

def updateMaxData (send : SendBuf) (maxData : Nat) : SendBuf :=
  { send with maxData := max send.maxData maxData }

def updateBlockedAt (send : SendBuf) (blockedAt : Option Nat) : SendBuf :=
  { send with blockedAt }

def ack (send : SendBuf) (off len : Nat) : Option SendBuf := do
  return { send with acked := ← send.acked.insert off (off + len) }

/-- The buffers at the front of the queue that lie below `ackOff`. -/
def droppable (data : List RangeBuf) (ackOff : Nat) : List RangeBuf := data.takeWhile fun buf =>
    !(buf.viewOff ≥ ackOff) && !(buf.viewOff < ackOff && ackOff < buf.maxOff)

def ackAndDrop (send : SendBuf) (off len : Nat) : Option SendBuf := do
  let send ← send.ack off len
  let ackOff := send.ackOff
  if send.data.isEmpty then return send
  if off > ackOff then return send
  let dropped := (droppable send.data ackOff).length
  return { send with data := send.data.drop dropped, pos := send.pos - dropped }

def splitLost (buf : RangeBuf) (maxOff : Nat) : Option (RangeBuf × Option RangeBuf) :=
  if buf.viewOff < maxOff ∧ maxOff < buf.maxOff then do
    let (left, right) ← buf.splitOff (maxOff - buf.viewOff)
    return (left, some right)
  else some (buf, none)

/-- Makes the part of a buffer from `off` on unread again. -/
def rewindLost (buf : RangeBuf) (off : Nat) : RangeBuf :=
  if off > buf.viewOff ∧ off ≤ buf.maxOff then
    buf.rewind (buf.start + (off - buf.viewOff)) (Nat.le_add_right _ _)
  else buf.rewind buf.start (Nat.le_refl _)

/-- The `for` loop of `retransmit`, over the indices that the queue had when it
started. -/
def retransmitLoop (off maxOff : Nat) : Nat → Nat → SendBuf → Option SendBuf
  | 0, _, send => some send
  | turns + 1, i, send =>
    match send.data[i]? with
    | none => none
    | some buf =>
      if buf.viewOff ≥ maxOff then some send
      else if off > buf.maxOff then retransmitLoop off maxOff turns (i + 1) send
      else do
        let (buf, newBuf) ← splitLost buf maxOff
        let rewound := rewindLost buf off
        retransmitLoop off maxOff turns (i + 1)
          { send with
            data := send.data.take i ++ (rewound :: newBuf.toList) ++ send.data.drop (i + 1)
            pos := min send.pos i
            len := send.len + (buf.pos - rewound.pos) }

def retransmit (send : SendBuf) (off len : Nat) : Option SendBuf :=
  let maxOff := off + len
  if send.data.isEmpty then some send
  else if maxOff ≤ send.ackOff then some send
  else retransmitLoop off maxOff send.data.length 0 send

def reset (send : SendBuf) : Option (SendBuf × Nat × Nat) := do
  let unsentOff := max send.offFront send.emitOff
  let unsentLen := send.offBack - unsentOff
  let send ← { send with finOff := some unsentOff, data := [], off := unsentOff }.ack 0 unsentOff
  return ({ send with pos := 0, len := 0 }, send.emitOff, unsentLen)

def stop (send : SendBuf) (errorCode : Nat) : Option (SendBuf × Except Error (Nat × Nat)) :=
  if send.error.isSome then some (send, .error .done)
  else do
    let (send, maxOff, unsent) ← send.reset
    return ({ send with error := some errorCode }, .ok (maxOff, unsent))

def shutdown (send : SendBuf) : Option (SendBuf × Except Error (Nat × Nat)) :=
  if send.isShutdown then some (send, .error .done)
  else do
    let (send, maxOff, unsent) ← { send with isShutdown := true }.reset
    return (send, .ok (maxOff, unsent))

end SendBuf

end Quiche
