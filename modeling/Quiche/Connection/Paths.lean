import Quiche.Connection

namespace Quiche

def maxUndecryptablePackets : Nat := 10

/-- What `recv_single` makes of the next packet of a datagram, as far as paths are
concerned. Frames are processed on their own. -/
inductive ReceivedPacket where
  /-- A packet with a long header. -/
  | long (size : Nat)
  /-- A 0-RTT packet whose key is not available yet. -/
  | undecryptable (size : Nat)
  /-- A packet with a short header, which reaches to the end of the datagram. -/
  | short (dcid : List UInt8)
  /-- A packet that is dropped, together with the rest of the datagram. -/
  | dropped

/-- A packet that `send_single` builds. `last` says that the datagram ends after it for
another reason than its type. -/
structure SentPacket where
  ty : PacketType
  size : Nat
  last : Bool

namespace Connection

abbrev Attempt := EStateM Error Connection

def withIds {Result : Type} (action : ConnectionIdentifiers.Action Result) : Attempt Result := fun conn =>
  match action conn.ids with
  | .ok result ids => .ok result { conn with ids }
  | .error reason ids => .error reason { conn with ids }

def withPaths {Result : Type} (action : PathMap.Action Result) : Attempt Result := fun conn =>
  match action conn.paths with
  | .ok result paths => .ok result { conn with paths }
  | .error reason paths => .error reason { conn with paths }

def getPath (pid : Nat) : Attempt Path := fun conn =>
  match conn.paths.get pid with
  | some path => .ok path conn
  | none => .error .invalidState conn

/-- Changes the path that `get_mut` finds. -/
def changePath (pid : Nat) (change : Path → Path) : Attempt Unit := fun conn =>
  if (conn.paths.get pid).isSome then .ok () { conn with paths := conn.paths.update pid change }
  else .error .invalidState conn

section Receive

/-- The part of `get_or_create_recv_path_id` for a known path, which may see another
source identifier than before. -/
def noteScid (recvPid inScidSeq : Nat) (dcid : List UInt8) : Attempt Nat := do
  let recvPath ← getPath recvPid
  let seen := (recvPath.activeScidSeq.bind (← get).ids.scids.get).map (·.cid)
  if seen = some dcid then return recvPid
  else
    changePath recvPid fun path => { path with activeScidSeq := some inScidSeq }
    withIds (ConnectionIdentifiers.linkScidToPathId inScidSeq recvPid)
    return recvPid

/-- The part of `get_or_create_recv_path_id` that tells the application about an
identifier that is used on another path. -/
def notifyReuse (inScidSeq : Nat) (inScidPid : Option Nat) (addrs : SocketAddr × SocketAddr) : Attempt Unit :=
  match inScidPid with
  | none => return ()
  | some pid => do
    let oldPath ← getPath pid
    let event := .reusedSourceConnectionId inScidSeq (oldPath.localAddr, oldPath.peerAddr) addrs
    modify fun conn => { conn with paths := conn.paths.notifyEvent event }

/-- The path that `get_or_create_recv_path_id` creates. -/
def recvPath (inScidSeq bufLen maxAmplificationFactor : Nat) (addrs : SocketAddr × SocketAddr) : Path :=
  { Path.new addrs.1 addrs.2 false with
    maxSendBytes := bufLen * maxAmplificationFactor
    activeScidSeq := some inScidSeq }.requestValidation

/-- The part of `get_or_create_recv_path_id` for an unknown path. -/
def createRecvPath (inScidSeq : Nat) (inScidPid : Option Nat) (bufLen : Nat)
    (addrs : SocketAddr × SocketAddr) : Attempt Nat := do
  notifyReuse inScidSeq inScidPid addrs
  let conn ← get
  let path := recvPath inScidSeq bufLen conn.maxAmplificationFactor addrs
  let pid ← withPaths (PathMap.insertPath path conn.isServer)
  match inScidPid with
  | none =>
    withIds (ConnectionIdentifiers.linkScidToPathId inScidSeq pid)
    return pid
  -- Do not record path reuse.
  | some _ => return pid

/-- Selects the path that a packet belongs to. `addrs` is the pair of the local and the
peer's address. -/
def getOrCreateRecvPathId (recvPid : Option Nat) (dcid : List UInt8) (bufLen : Nat)
    (addrs : SocketAddr × SocketAddr) : Attempt Nat := fun conn =>
  match conn.ids.findScidSeq dcid with
  | none => .error .invalidState conn
  | some (inScidSeq, inScidPid) =>
    match recvPid with
    | some recvPid => noteScid recvPid inScidSeq dcid conn
    | none =>
      let inScidPid := if conn.ids.zeroLengthScid then none else inScidPid
      createRecvPath inScidSeq inScidPid bufLen addrs conn

/-- A packet with a short header. When there is no room for another path, `recv` drops
it. -/
def recvShort (recvPid : Option Nat) (dcid : List UInt8) (bufLen : Nat) (addrs : SocketAddr × SocketAddr) :
    Attempt Unit := fun conn =>
  match getOrCreateRecvPathId recvPid dcid bufLen addrs conn with
  | .ok _ conn => .ok () conn
  | .error .done conn => .ok () conn
  | .error reason conn => .error reason conn

/-- The `while` loop of `recv` over the packets of a datagram with `left` bytes to go. -/
def recvPackets (recvPid : Option Nat) (addrs : SocketAddr × SocketAddr) : Nat → List ReceivedPacket → Attempt Unit
  | 0, _ => return ()
  | _, [] => return ()
  | left, .long size :: rest => recvPackets recvPid addrs (left - size) rest
  | left, .undecryptable size :: rest => do
    if (← get).undecryptablePkts.length < maxUndecryptablePackets then
      modify fun conn =>
        { conn with undecryptablePkts := conn.undecryptablePkts ++ [(min size left, addrs)] }
      recvPackets recvPid addrs (left - size) rest
    else return ()
  | left, .short dcid :: _ => recvShort recvPid dcid left addrs
  | _, .dropped :: _ => return ()

/-- `recv` for a datagram of `len` bytes, without the packets that were buffered. -/
def recv (addrs : SocketAddr × SocketAddr) (len : Nat) (packets : List ReceivedPacket) : Attempt Unit := do
  if len = 0 then throw .bufferTooShort
  else
    let conn ← get
    match conn.paths.pathIdFromAddrs addrs with
    | some recvPid =>
      let recvPath ← getPath recvPid
      -- The limit is increased early on, so that there is enough credit to send a
      -- CONNECTION_CLOSE.
      if conn.isServer && !recvPath.verifiedPeerAddress then
        changePath recvPid fun path =>
          { path with maxSendBytes := path.maxSendBytes + len * conn.maxAmplificationFactor }
        recvPackets (some recvPid) addrs len packets
      else recvPackets (some recvPid) addrs len packets
    | none => if conn.isServer then recvPackets none addrs len packets else return ()

/-- A turn of the loop of `process_undecrypted_0rtt_packets`. -/
def processUndecrypted : Attempt Unit := fun conn =>
  match conn.undecryptablePkts with
  | [] => .ok () conn
  | (len, addrs) :: rest =>
    match recv addrs len [.long len] { conn with undecryptablePkts := rest } with
    | .ok () conn => .ok () conn
    | .error reason conn => .error reason { conn with undecryptablePkts := [] }

end Receive

section Identifiers

def repairDcid (dcidSeq pid : Nat) : Attempt Unit := do
  let path ← getPath pid
  -- Maybe the path already switched to another DCID.
  if path.activeDcidSeq ≠ some dcidSeq then return ()
  else
    match (← get).ids.lowestAvailableDcidSeq with
    | some newDcidSeq =>
      changePath pid fun path => { path with activeDcidSeq := some newDcidSeq }
      withIds (ConnectionIdentifiers.linkDcidToPathId newDcidSeq pid)
    -- We cannot use this path anymore for now.
    | none => changePath pid fun path => { path with activeDcidSeq := none }

def repairDcids : List (Nat × Nat) → Attempt Unit
  | [] => return ()
  | (dcidSeq, pid) :: rest => do
    repairDcid dcidSeq pid
    repairDcids rest

/-- `process_frame` for a NEW_CONNECTION_ID frame. The paths are repaired before the error
of `new_dcid` is propagated. -/
def processNewConnectionId (seqNum retirePriorTo : Nat) (connId : List UInt8) (resetToken : BitVec 128)
    (wrap : Nat) : Attempt Unit := fun conn =>
  if conn.ids.zeroLengthDcid then .error .invalidState conn
  else
    match ConnectionIdentifiers.newDcid connId seqNum resetToken retirePriorTo wrap (conn.ids, []) with
    | .ok _ (ids, retiredPathIds) => repairDcids retiredPathIds { conn with ids }
    | .error reason (ids, retiredPathIds) =>
      (do repairDcids retiredPathIds; throw reason : Attempt Unit) { conn with ids }

def releaseScid (seqNum : Nat) (pid : Option Nat) : Attempt Unit :=
  match pid with
  | none => return ()
  | some pid => do
    let path ← getPath pid
    -- Maybe we already linked a new SCID to that path.
    if path.activeScidSeq = some seqNum then
      changePath pid fun path => { path with activeScidSeq := none }
    else return ()

/-- `process_frame` for a RETIRE_CONNECTION_ID frame in a packet to `hdrDcid`. -/
def processRetireConnectionId (seqNum : Nat) (hdrDcid : List UInt8) : Attempt Unit := do
  if (← get).ids.zeroLengthScid then throw .invalidState
  else
    let pid ← withIds (ConnectionIdentifiers.retireScid seqNum hdrDcid)
    releaseScid seqNum pid

/-- The loop of `recv_single` over the paths without a destination identifier. -/
def allocateDcids : List Nat → Attempt Unit
  | [] => return ()
  | pid :: rest => do
    let ids := (← get).ids
    if ids.zeroLengthDcid then
      changePath pid fun path => { path with activeDcidSeq := some 0 }
      allocateDcids rest
    else
      match ids.lowestAvailableDcidSeq with
      | none => return ()
      | some dcidSeq =>
        withIds (ConnectionIdentifiers.linkDcidToPathId dcidSeq pid)
        changePath pid fun path => { path with activeDcidSeq := some dcidSeq }
        allocateDcids rest

/-- What `recv_single` does once all frames are processed. -/
def reallocateDcids : Attempt Unit := fun conn =>
  allocateDcids ((conn.paths.paths.iter.filter fun (_, path) => path.activeDcidSeq.isNone).map (·.1)) conn

/-- The part of `on_peer_migrated` that lets the new path use the identifier of the old
one. -/
def reuseDcid (newPid activePathId : Nat) : Attempt Unit := do
  let newPath ← getPath newPid
  if newPath.activeDcidSeq.isNone && !(← get).disableDcidReuse then
    let oldPath ← getPath activePathId
    changePath newPid fun path => { path with activeDcidSeq := oldPath.activeDcidSeq }
  else return ()

def onPeerMigrated (newPid : Nat) : Attempt Unit := do
  match (← get).paths.getActivePathId with
  | none => throw .invalidState
  | some activePathId =>
    if activePathId = newPid then return ()
    else
      withPaths (PathMap.setActivePath newPid)
      reuseDcid newPid activePathId

end Identifiers

section Send

/-- The destination and the source identifier of a packet that `send_single` builds. -/
def selectCids (conn : Connection) (path : Path) (ty : PacketType) : Except Error (List UInt8 × List UInt8) :=
  match path.activeDcidSeq with
  | none => .error .outOfIdentifiers
  | some dcidSeq =>
    match conn.ids.dcids.get dcidSeq with
    | none => .error .invalidState
    | some dcid =>
      match path.activeScidSeq with
      | none => if ty = .short then .ok (dcid.cid, []) else .error .invalidState
      | some scidSeq =>
        match conn.ids.scids.get scidSeq with
        | none => .error .invalidState
        | some scid => .ok (dcid.cid, scid.cid)

/-- What `send_single` does for a packet in a buffer of `left` bytes, as far as paths are
concerned. -/
def sendSingle (sendPid : Nat) (packet : SentPacket) (left : Nat) : Attempt Nat := do
  let path ← getPath sendPid
  match selectCids (← get) path packet.ty with
  | .error reason => throw reason
  | .ok _ =>
    if left < packet.size then throw .bufferTooShort
    else
      changePath sendPid fun path => { path with maxSendBytes := path.maxSendBytes - packet.size }
      return packet.size

structure Coalesced where
  done : Nat
  left : Nat
  hasInitial : Bool

def Coalesced.push (datagram : Coalesced) (ty : PacketType) (written : Nat) : Coalesced where
  done := datagram.done + written
  left := datagram.left - written
  hasInitial := datagram.hasInitial || ty == .initial

/-- The `while` loop of `send_on_path`. When the list of packets ends, `send_single` has
nothing more to send. -/
def sendPackets (sendPid : Nat) : Coalesced → List SentPacket → Attempt Coalesced
  | datagram, [] => return datagram
  | datagram, packet :: rest => fun conn =>
    if datagram.left = 0 then .ok datagram conn
    else
      match sendSingle sendPid packet datagram.left conn with
      | .error .bufferTooShort conn => .ok datagram conn
      | .error .done conn => .ok datagram conn
      | .error reason conn => .error reason conn
      | .ok written conn =>
        let datagram := datagram.push packet.ty written
        -- No more packets can be coalesced after a 1-RTT.
        if packet.ty = .short ∨ packet.last then .ok datagram conn
        else sendPackets sendPid datagram rest conn

def padLen (datagram : Coalesced) : Nat :=
  if datagram.hasInitial && datagram.left > 0 && datagram.done < minClientInitialLen then
    min datagram.left (minClientInitialLen - datagram.done)
  else 0

def datagramSpace (conn : Connection) (path : Path) (outLen maxDatagram : Nat) : Nat :=
  let left := min outLen maxDatagram
  -- Limit data sent by the server based on the amount of data received from the client
  -- before its address is validated.
  if !path.verifiedPeerAddress && conn.isServer then min left path.maxSendBytes else left

/-- `send_on_path` into a buffer of `outLen` bytes, on the path that was selected;
`maxDatagram` is the limit of the connection or of path MTU discovery. Yields the length of
the datagram. -/
def sendOnPath (sendPid outLen maxDatagram : Nat) (packets : List SentPacket) : Attempt Nat := do
  if outLen = 0 then throw .bufferTooShort
  else
    let path ← getPath sendPid
    let left := datagramSpace (← get) path outLen maxDatagram
    let datagram ← sendPackets sendPid ⟨0, left, false⟩ packets
    if datagram.done = 0 then throw .done
    else return datagram.done + padLen datagram

end Send

end Connection

end Quiche
