import Quiche.Dgram
import Quiche.Pmtud

namespace Quiche

def maxPktNumLen : Nat := 4
def maxDgramOverhead : Nat := 2

/-- What bounds the packets of a path: `max_datagram_size()` of its recovery, and the discovery of its MTU. -/
structure SizedPath where
  maxDatagramSize : Nat
  pmtud : Option Pmtud
deriving DecidableEq

/-- What bounds the packets of a connection, and the datagrams that wait for one. While `send_on_path`
coalesces packets on the path `sendPid`, `out` is the rest of the buffer that it may fill. -/
structure Sender where
  paths : Nat → Option SizedPath
  activePid : Option Nat
  recoverySize : Nat
  handshakeCompleted : Bool
  handshakeConfirmed : Bool
  peerMaxDatagramFrameSize : Option Nat
  emitDgram : Bool
  dgramSendQueue : DatagramQueue
  sendPid : Nat
  out : List UInt8

namespace Sender

/-- A new connection. The discovery of the path MTU, if there is one, starts from `maximumSupportedMtu`, as the
configuration or a callback of the handshake asks for. -/
def start (maxSendUdpPayloadSize : Nat) (maximumSupportedMtu : Option Nat) (dgramSendMaxQueueLen : Nat) : Sender where
  paths := fun pid => if pid = 0 then some ⟨maxSendUdpPayloadSize, maximumSupportedMtu.map Pmtud.new⟩ else none
  activePid := some 0
  recoverySize := maxSendUdpPayloadSize
  handshakeCompleted := false
  handshakeConfirmed := false
  peerMaxDatagramFrameSize := none
  emitDgram := true
  dgramSendQueue := .new dgramSendMaxQueueLen
  sendPid := 0
  out := []

variable (sender : Sender)

def path (pid : Nat) : Option SizedPath := sender.paths pid

def activePath : Option SizedPath := sender.activePid.bind sender.path

def setPath (pid : Nat) (path : Option SizedPath) : Sender :=
  { sender with paths := fun other => if other = pid then path else sender.paths other }

def updatePath (pid : Nat) (change : SizedPath → SizedPath) : Sender :=
  sender.setPath pid ((sender.path pid).map change)

@[simp] theorem path_setPath (pid other : Nat) (path : Option SizedPath) :
    (sender.setPath pid path).path other = if other = pid then path else sender.path other := rfl

@[simp] theorem path_updatePath (pid other : Nat) (change : SizedPath → SizedPath) :
    (sender.updatePath pid change).path other =
      if other = pid then (sender.path pid).map change else sender.path other := rfl

def updateActive (change : SizedPath → SizedPath) : Sender :=
  match sender.activePid with
  | some pid => sender.updatePath pid change
  | none => sender

theorem updateActive_queue (change : SizedPath → SizedPath) :
    (sender.updateActive change).dgramSendQueue = sender.dgramSendQueue := by
  rw [updateActive]
  split <;> rfl

def maxSendUdpPayloadSize : Nat :=
  match sender.activePath with
  | some path =>
    if sender.handshakeCompleted then
      -- It can always be encoded with a 2-byte varint.
      min 16383 path.maxDatagramSize
    else minClientInitialLen
  | none => minClientInitialLen

/-- `dgram_max_writable_len`, with the length of `destination_id()` and the AEAD overhead of the application epoch,
`none` without its keys. -/
def dgramMaxWritableLen (dcidLen : Nat) (cryptoOverhead : Option Nat) : Option Nat :=
  match sender.peerMaxDatagramFrameSize with
  | none => none
  | some peerFrameLen => do
    let maxLen := sender.maxSendUdpPayloadSize - (1 + dcidLen) - maxPktNumLen - (← cryptoOverhead)
    subChecked (min peerFrameLen maxLen) (1 + maxDgramOverhead)

/-- `dgram_send` and `dgram_send_vec`; a datagram is queued even where no path is active. -/
def dgramSend (dcidLen : Nat) (cryptoOverhead : Option Nat) (buf : List UInt8) : Sender × Except Error Unit :=
  match sender.dgramMaxWritableLen dcidLen cryptoOverhead with
  | none => (sender, .error .invalidState)
  | some maxPayloadLen =>
    if buf.length > maxPayloadLen then (sender, .error .bufferTooShort)
    else
      match sender.dgramSendQueue.push buf with
      | .error error => (sender, .error error)
      | .ok dgramSendQueue =>
        ({ sender with dgramSendQueue }, if sender.activePath.isSome then .ok () else .error .invalidState)

def dgramPurgeOutgoing (purged : List UInt8 → Bool) : Sender :=
  { sender with dgramSendQueue := sender.dgramSendQueue.purge purged }

def processPeerTransportParams (maxUdpPayloadSize : Nat) (maxDatagramFrameSize : Option Nat) : Sender :=
  match sender.activePath with
  | none => sender
  | some path =>
    let size :=
      match path.pmtud with
      | some pmtud => if pmtud.shouldProbe then pmtud.getProbeSize else path.maxDatagramSize
      | none => path.maxDatagramSize
    { sender.updateActive fun path => { path with maxDatagramSize := min size maxUdpPayloadSize } with
      peerMaxDatagramFrameSize := maxDatagramFrameSize }

/-- What `recv_single` does for a probe that was acknowledged. -/
def probeAcked (pid probeSize : Nat) : Option Sender :=
  match sender.path pid with
  | some ⟨maxDatagramSize, some pmtud⟩ => do
    let (currentMtu, pmtud) ← pmtud.successfulProbe probeSize
    return sender.setPath pid (some ⟨currentMtu.getD maxDatagramSize, some pmtud⟩)
  | _ => some sender

/-- What `send_single` does for a probe that was lost. -/
def probeLost (pid failedProbe : Nat) : Option Sender :=
  match sender.path pid with
  | some ⟨maxDatagramSize, some pmtud⟩ => do
    return sender.setPath pid (some ⟨maxDatagramSize, some (← pmtud.failedProbe failedProbe)⟩)
  | _ => some sender

def revalidatePmtu : Sender :=
  sender.updateActive fun path => { path with pmtud := path.pmtud.map Pmtud.revalidatePmtu }

/-- `send_on_path` up to its loop over the packets, for a path and a buffer. The `credit` is `max_send_bytes` of the
path, where a server waits for its peer's address to be validated. -/
def sendOnPath (pid : Nat) (out : List UInt8) (credit : Option Nat) : Sender :=
  match sender.path pid with
  | none => { sender with out := [] }
  | some path =>
    if out.isEmpty then { sender with out := [] }
    else
      let left := min out.length sender.maxSendUdpPayloadSize
      let (sender, left) :=
        match path.pmtud with
        | some pmtud =>
          if pmtud.shouldProbe then
            let size :=
              if sender.handshakeConfirmed || sender.handshakeCompleted then pmtud.getProbeSize
              else pmtud.getCurrentMtu
            (sender.setPath pid (some { path with maxDatagramSize := size }), min out.length size)
          else (sender, left)
        | none => (sender, left)
      let left :=
        match credit with
        | some maxSendBytes => min left maxSendBytes
        | none => left
      { sender with sendPid := pid, out := out.take left }

theorem sendOnPath_queue (pid : Nat) (out : List UInt8) (credit : Option Nat) :
    (sender.sendOnPath pid out credit).dgramSendQueue = sender.dgramSendQueue := by
  rw [sendOnPath]
  split
  · rfl
  · split
    · rfl
    · dsimp only
      split
      · split <;> rfl
      · rfl

theorem sendOnPath_probing {sender : Sender} {pid size : Nat} {pmtud : Pmtud} {out : List UInt8} (filled : 0 < out.length)
    (known : sender.path pid = some ⟨size, some pmtud⟩) (probes : pmtud.shouldProbe = true)
    (completed : sender.handshakeCompleted = true) : sender.sendOnPath pid out none =
      { sender.setPath pid (some ⟨pmtud.getProbeSize, some pmtud⟩) with
        sendPid := pid, out := out.take (min out.length pmtud.getProbeSize) } := by
  have nonempty : ¬ out.isEmpty = true := by
    rw [List.isEmpty_iff_length_eq_zero]
    omega
  rw [sendOnPath, known]
  dsimp only
  rw [if_neg nonempty, if_pos probes, if_pos (by simp [completed])]

/-- The bytes that `send_single` may use of its buffer. -/
def room : Nat :=
  match (sender.path sender.sendPid).bind SizedPath.pmtud with
  | some pmtud => min pmtud.getCurrentMtu sender.out.length
  | none => sender.out.length

theorem room_le : sender.room ≤ sender.out.length := by
  rw [room]
  split
  · exact Nat.min_le_right _ _
  · exact Nat.le_refl _

/-- `should_send_pmtu_probe` of the active path but for the frames of the packet, and the size of the probe. -/
def probeSize (cwndAvailable : Nat) (isClosing : Bool) : Option Nat := do
  let pmtud ← (← sender.activePath).pmtud
  let size := pmtud.getProbeSize
  if sender.handshakeConfirmed && sender.handshakeCompleted && decide (cwndAvailable > size) &&
      decide (sender.out.length ≥ size) && pmtud.shouldProbe && !isClosing then some size
  else none

end Sender

end Quiche
