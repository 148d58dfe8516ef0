import Mathlib.Data.Nat.Basic
import Quiche.Data.OrderedMap
import Quiche.FlowControl
import Quiche.RangeBuf

namespace Quiche

open Data

def defaultStreamWindow : Nat := 32 * 1024

structure RecvBuf where
  data : OrderedMap Nat RangeBuf
  off : Nat
  len : Nat
  flowControl : FlowControl
  finOff : Option Nat
  error : Option Nat
  drain : Bool
deriving DecidableEq

namespace RecvBuf

/-! Every method that can panic returns an `Option`, with `none` for the panic.
`&mut self` is passed and returned explicitly, next to the method's `Result`:
several methods change `self` before they fail. -/

def new (maxData maxWindow : Nat) : RecvBuf where
  data := .empty
  off := 0
  len := 0
  flowControl := .new maxData (min maxData defaultStreamWindow) maxWindow
  finOff := none
  error := none
  drain := false

def maxData (recv : RecvBuf) : Nat := recv.flowControl.maxData

def offFront (recv : RecvBuf) : Nat := recv.off

def maxOff (recv : RecvBuf) : Nat := recv.len

def isFin (recv : RecvBuf) : Bool := recv.finOff == some recv.off

def ready (recv : RecvBuf) : Bool :=
  match recv.data.first? with
  | some (_, buf) => buf.off == recv.off
  | none => false

/-- The `for` loop of `write` over the stored chunks that may overlap `buf`.

The first component is what is left of `buf` in front of the next stored chunk, or
`none` after `continue 'tmp`; the second is the work queue with the parts behind a
stored chunk pushed to its back. -/
def trim : List RangeBuf → RangeBuf → List RangeBuf → Option (Option RangeBuf × List RangeBuf)
  | [], buf, tmpBufs => some (some buf, tmpBufs)
  | b :: rest, buf, tmpBufs =>
    let off := buf.off
    -- We are past the current buffer.
    if b.off > buf.maxOff then some (some buf, tmpBufs)
    -- New buffer is fully contained in existing buffer.
    else if off ≥ b.off ∧ buf.maxOff ≤ b.maxOff then some (none, tmpBufs)
    else do
      -- New buffer's start overlaps existing buffer.
      let buf ←
        if off ≥ b.off ∧ off < b.maxOff then
          (buf.splitOff (b.maxOff - off)).map (·.2)
        else some buf
      -- New buffer's end overlaps existing buffer.
      if off < b.off ∧ buf.maxOff > b.off then
        let (front, back) ← buf.splitOff (b.off - off)
        trim rest front (tmpBufs ++ [back])
      else trim rest buf tmpBufs

def discardRead (recv : RecvBuf) (buf : RangeBuf) : Option RangeBuf :=
  if recv.offFront > buf.off then (buf.splitOff (recv.offFront - buf.off)).map (·.2)
  else some buf

def handleOverlap (recv : RecvBuf) (buf : RangeBuf) (tmpBufs : List RangeBuf) :
    Option (Option RangeBuf × List RangeBuf) :=
  if buf.off < recv.maxOff ∨ buf.isEmpty then
    trim ((recv.data.rangeFrom buf.off).map (·.2)) buf tmpBufs
  else some (some buf, tmpBufs)

/-- The `'tmp` loop of `write`. Every round takes one buffer off the queue and
pushes only parts of it, so the number of bytes queued bounds the rounds. -/
def writeLoop : Nat → RecvBuf → List RangeBuf → Option RecvBuf
  | _, recv, [] => some recv
  | 0, _, _ :: _ => none
  | fuel + 1, recv, buf :: tmpBufs => do
    let buf ← recv.discardRead buf
    let (kept, tmpBufs) ← recv.handleOverlap buf tmpBufs
    match kept with
    | none => writeLoop fuel recv tmpBufs
    | some buf =>
      let recv := { recv with len := max recv.len buf.maxOff }
      let recv :=
        if recv.drain then recv
        else { recv with data := recv.data.insert buf.maxOff buf }
      writeLoop fuel recv tmpBufs

def write (recv : RecvBuf) (buf : RangeBuf) : Option (RecvBuf × Except Error Unit) :=
  -- `max_off()` itself overflows for a chunk that ends past the last offset.
  if buf.maxOff ≥ 2 ^ 64 then none
  else if buf.maxOff > recv.maxData then some (recv, .error .flowControl)
  -- Stream's size is known, forbid data beyond that point.
  else if recv.finOff.any (buf.maxOff > ·) then some (recv, .error .finalSize)
  -- Stream's size is already known, forbid changing it.
  else if recv.finOff.any (buf.fin && · != buf.maxOff) then some (recv, .error .finalSize)
  -- Stream's known size is lower than data already received.
  else if buf.fin ∧ buf.maxOff < recv.len then some (recv, .error .finalSize)
  -- We already saved the final offset, so there's nothing else we need to keep.
  else if recv.finOff.isSome ∧ buf.isEmpty then some (recv, .ok ())
  else
    let recv := if buf.fin then { recv with finOff := some buf.maxOff } else recv
    -- No need to store empty buffer that doesn't carry the fin flag.
    if ¬ buf.fin ∧ buf.isEmpty then some (recv, .ok ())
    -- Fully duplicate data; empty buffers are the exception.
    else if recv.off ≥ buf.maxOff ∧ ¬ buf.isEmpty then some (recv, .ok ())
    else (writeLoop (buf.len + 1) recv [buf]).map (·, .ok ())

/-- The `while` loop of `emit`: the bytes copied out so far are `out`, and `cap`
is the room left behind them. Every round but the last removes a chunk. -/
def emitLoop : Nat → RecvBuf → Nat → List UInt8 → Option (RecvBuf × List UInt8)
  | 0, _, _, _ => none
  | fuel + 1, recv, cap, out =>
    if 0 < cap ∧ recv.ready then
      match recv.data.first? with
      | none => some (recv, out)
      | some (_, buf) => do
        let bufLen := min buf.len cap
        let off ← addU64 recv.off bufLen
        let out := out ++ buf.bytes.take bufLen
        if bufLen < buf.len then
          let buf := buf.consume bufLen (buf.min_len_le cap)
          some ({ recv with data := recv.data.setFirst buf, off }, out)
        else
          emitLoop fuel { recv with data := recv.data.popFirst, off } (cap - bufLen) out
    else some (recv, out)

/-- `emit` into a buffer of `cap` bytes. The bytes returned are the part of that
buffer that was written; the source returns their number. -/
def emit (recv : RecvBuf) (cap : Nat) : Option (RecvBuf × Except Error (List UInt8 × Bool)) :=
  if ¬ recv.ready then some (recv, .error .done)
  else match recv.error with
  | some code => some ({ recv with data := .empty }, .error (.streamReset code))
  | none => do
    let (recv, out) ← emitLoop (recv.data.size + 1) recv cap []
    -- Update consumed bytes for flow control.
    let flowControl ← recv.flowControl.addConsumed out.length
    let recv := { recv with flowControl }
    some (recv, .ok (out, recv.isFin))

def reset (recv : RecvBuf) (errorCode finalSize : Nat) : Option (RecvBuf × Except Error Nat) :=
  -- Stream's size is already known, forbid changing it.
  if recv.finOff.any (· != finalSize) then some (recv, .error .finalSize)
  -- Stream's known size is lower than data already received.
  else if finalSize < recv.len then some (recv, .error .finalSize)
  else
    let maxDataDelta := finalSize - recv.len
    if recv.error.isSome then some (recv, .ok maxDataDelta)
    else do
      let recv := { recv with error := some errorCode, off := finalSize, data := .empty }
      -- A zero-length buffer at the final size, to notify the application.
      let (recv, written) ← recv.write (.fromBytes [] finalSize true)
      match written with
      | .error error => some (recv, .error error)
      | .ok () => some (recv, .ok maxDataDelta)

def shutdown (recv : RecvBuf) : RecvBuf × Except Error Unit :=
  if recv.drain then (recv, .error .done)
  else ({ recv with drain := true, data := .empty, off := recv.maxOff }, .ok ())

def almostFull (recv : RecvBuf) : Option Bool :=
  if recv.finOff.isNone then recv.flowControl.shouldUpdateMaxData else some false

def isDraining (recv : RecvBuf) : Bool := recv.drain

end RecvBuf

end Quiche
