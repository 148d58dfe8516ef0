import Quiche.Connection.Paths
import Quiche.Path.Active

namespace Quiche.Connection

open Data

/-- What can happen to the paths and the identifiers of a connection: datagrams, the frames
in them, timeouts, and calls of the application. -/
inductive Event where
  | recv (addrs : SocketAddr × SocketAddr) (len : Nat) (packets : List ReceivedPacket)
  | processUndecrypted
  | newConnectionId (seqNum retirePriorTo : Nat) (connId : List UInt8) (resetToken : BitVec 128) (wrap : Nat)
  | retireConnectionId (seqNum : Nat) (hdrDcid : List UInt8)
  | reallocateDcids
  | peerMigrated (newPid : Nat)
  | pathResponse (data : BitVec 64)
  | handshakePacket (recvPid : Nat)
  | handshakeCompleted
  | challengeSent (pid : Nat) (data : BitVec 64) (pktSize sentTime : Nat)
  | lossDetectionTimeout (pid now rtt : Nat)
  | newScid (cid : List UInt8) (resetToken : BitVec 128) (retireIfNeeded : Bool)
  | setSourceConnIdLimit (limit : Nat)
  | sendOnPath (sendPid outLen maxDatagram : Nat) (packets : List SentPacket)

def Event.attempt : Event → Attempt Unit
  | .recv addrs len packets => Connection.recv addrs len packets
  | .processUndecrypted => Connection.processUndecrypted
  | .newConnectionId seqNum retirePriorTo connId resetToken wrap =>
    processNewConnectionId seqNum retirePriorTo connId resetToken wrap
  | .retireConnectionId seqNum hdrDcid => processRetireConnectionId seqNum hdrDcid
  | .reallocateDcids => Connection.reallocateDcids
  | .peerMigrated newPid => do if (← get).isServer then onPeerMigrated newPid else return ()
  | .pathResponse data => withPaths (PathMap.onResponseReceived data)
  | .handshakePacket recvPid => do
    if (← get).isServer then changePath recvPid fun path => { path with verifiedPeerAddress := true }
    else return ()
  -- There is no point in processing 0-RTT packets any more.
  | .handshakeCompleted => modify fun conn => { conn with undecryptablePkts := [] }
  | .challengeSent pid data pktSize sentTime => changePath pid (·.addChallengeSent data pktSize sentTime)
  | .lossDetectionTimeout pid now rtt => do
    let isServer := (← get).isServer
    changePath pid (·.onLossDetectionTimeout now rtt isServer)
  | .newScid cid resetToken retireIfNeeded => do
    let _ ← withIds (ConnectionIdentifiers.newScid cid (some resetToken) true none retireIfNeeded)
    return ()
  | .setSourceConnIdLimit limit => modify fun conn => { conn with ids := conn.ids.setSourceConnIdLimit limit }
  | .sendOnPath sendPid outLen maxDatagram packets => do
    let _ ← Connection.sendOnPath sendPid outLen maxDatagram packets
    return ()

def established (config : Config) (scid dcid : List UInt8) (resetToken : Option (BitVec 128))
    (localAddr peerAddr : SocketAddr) (addressVerified isServer : Bool) : Connection :=
  let conn := new config scid localAddr peerAddr addressVerified isServer
  { conn with ids := conn.ids.setInitialDcid dcid resetToken (some 0) }

def serverConfig : Config where
  localTransportParams := ⟨100, 50, 50, 50, 4, 4, 2⟩
  statelessResetToken := none
  txCapFactor := 1
  maxConnectionWindow := 100
  maxStreamWindow := 100
  maxAmplificationFactor := 3
  disableDcidReuse := false

def network : Machine Connection Event where
  step conn event := some (after (event.attempt conn))

section Attempts

variable {conn next : Connection} {pid : Nat} {invariant : Connection → Prop}

theorem getPath_some {path : Path} (present : conn.paths.get pid = some path) : getPath pid conn = .ok path conn := by
  rw [getPath, present]

theorem getPath_none (absent : conn.paths.get pid = none) : getPath pid conn = .error .invalidState conn := by
  rw [getPath, absent]

theorem changePath_some {path : Path} (present : conn.paths.get pid = some path) (change : Path → Path) :
    changePath pid change conn = .ok () { conn with paths := conn.paths.update pid change } := by
  rw [changePath, present]
  rfl

section With

variable {Result : Type} {result : Result} {reason : Error}

theorem withIds_ok {action : ConnectionIdentifiers.Action Result} {ids : ConnectionIdentifiers}
    (called : action conn.ids = .ok result ids) : withIds action conn = .ok result { conn with ids } := by
  rw [withIds, called]

theorem withIds_error {action : ConnectionIdentifiers.Action Result} {ids : ConnectionIdentifiers}
    (called : action conn.ids = .error reason ids) : withIds action conn = .error reason { conn with ids } := by
  rw [withIds, called]

theorem after_withIds (action : ConnectionIdentifiers.Action Result) (conn : Connection) :
    after (withIds action conn) = { conn with ids := after (action conn.ids) } := by
  rw [withIds]
  cases action conn.ids <;> rfl

theorem withPaths_ok {action : PathMap.Action Result} {paths : PathMap}
    (called : action conn.paths = .ok result paths) : withPaths action conn = .ok result { conn with paths } := by
  rw [withPaths, called]

theorem withPaths_error {action : PathMap.Action Result} {paths : PathMap}
    (called : action conn.paths = .error reason paths) : withPaths action conn = .error reason { conn with paths } := by
  rw [withPaths, called]

theorem after_withPaths (action : PathMap.Action Result) (conn : Connection) :
    after (withPaths action conn) = { conn with paths := after (action conn.paths) } := by
  rw [withPaths]
  cases action conn.paths <;> rfl

end With

theorem preserves_getPath (pid : Nat) : Preserves invariant (getPath pid) := by
  constructor
  intro conn holds
  rw [getPath]
  split <;> exact holds

theorem preserves_withIds {Result : Type} {action : ConnectionIdentifiers.Action Result}
    (kept : ∀ conn, invariant conn → invariant { conn with ids := after (action conn.ids) }) :
    Preserves invariant (withIds action) := by
  constructor
  intro conn holds
  rw [after_withIds]
  exact kept conn holds

theorem preserves_withPaths {Result : Type} {action : PathMap.Action Result}
    (kept : ∀ conn, invariant conn → invariant { conn with paths := after (action conn.paths) }) :
    Preserves invariant (withPaths action) := by
  constructor
  intro conn holds
  rw [after_withPaths]
  exact kept conn holds

theorem preserves_changePath {change : Path → Path}
    (kept : ∀ conn path, invariant conn → conn.paths.get pid = some path →
      invariant { conn with paths := conn.paths.update pid change }) :
    Preserves invariant (changePath pid change) := by
  constructor
  intro conn holds
  rw [changePath]
  split
  · rename_i present
    obtain ⟨path, found⟩ := Option.isSome_iff_exists.mp present
    exact kept conn path holds found
  · exact holds

theorem after_recvShort (recvPid : Option Nat) (dcid : List UInt8) (bufLen : Nat)
    (addrs : SocketAddr × SocketAddr) (conn : Connection) : after (recvShort recvPid dcid bufLen addrs conn) =
      after (getOrCreateRecvPathId recvPid dcid bufLen addrs conn) := by
  rw [recvShort]
  split <;> rename_i called <;> rw [called] <;> rfl

theorem preserves_recvPackets {recvPid : Option Nat} {addrs : SocketAddr × SocketAddr}
    (waits : ∀ conn waiting, invariant conn → invariant { conn with undecryptablePkts := waiting })
    (selects : ∀ dcid bufLen, Preserves invariant (getOrCreateRecvPathId recvPid dcid bufLen addrs))
    (left : Nat) (packets : List ReceivedPacket) : Preserves invariant (recvPackets recvPid addrs left packets) := by
  induction packets generalizing left with
  | nil => cases left <;> exact preserves_pure _
  | cons packet rest ih =>
    cases left with
    | zero => exact preserves_pure _
    | succ left =>
      cases packet with
      | long size => exact ih _
      | undecryptable size =>
        rw [recvPackets]
        · apply preserves_get.bind
          intro conn
          apply Preserves.ite _ (preserves_pure _)
          apply Preserves.bind
          · exact preserves_modify fun conn holds => waits conn _ holds
          · exact fun _ => ih _
        · simp
      | short dcid =>
        constructor
        intro conn holds
        show invariant (after (recvShort recvPid dcid (left + 1) addrs conn))
        rw [after_recvShort]
        exact (selects dcid _).kept conn holds
      | dropped => exact preserves_pure _

end Attempts

section CreateRecvPath

variable {conn : Connection} {addrs : SocketAddr × SocketAddr}

theorem notifyReuse_spec (inScidSeq : Nat) (inScidPid : Option Nat) (addrs : SocketAddr × SocketAddr)
    (conn : Connection) : (∃ reason, notifyReuse inScidSeq inScidPid addrs conn = .error reason conn) ∨
      ∃ events, notifyReuse inScidSeq inScidPid addrs conn =
        .ok () { conn with paths := { conn.paths with events } } := by
  cases inScidPid with
  | none => exact .inr ⟨conn.paths.events, rfl⟩
  | some pid =>
    rw [notifyReuse]
    cases present : conn.paths.get pid with
    | none => exact .inl ⟨_, bind_error (getPath_none present) _⟩
    | some oldPath => exact .inr ⟨_, bind_ok (getPath_some present) _⟩

theorem createRecvPath_spec (inScidSeq : Nat) (inScidPid : Option Nat) (bufLen : Nat)
    (addrs : SocketAddr × SocketAddr) (conn : Connection) :
    (∃ events, after (createRecvPath inScidSeq inScidPid bufLen addrs conn) =
        { conn with paths := { conn.paths with events } }) ∨
      ∃ pid paths ids, after (createRecvPath inScidSeq inScidPid bufLen addrs conn) = { conn with paths, ids } ∧
        PathMap.Inserted conn.paths (recvPath inScidSeq bufLen conn.maxAmplificationFactor addrs) pid paths ∧
        (ids = conn.ids ∨
          inScidPid = none ∧ ids = after (ConnectionIdentifiers.linkScidToPathId inScidSeq pid conn.ids)) := by
  rw [createRecvPath]
  rcases notifyReuse_spec inScidSeq inScidPid addrs conn with ⟨reason, failed⟩ | ⟨events, notified⟩
  · rw [bind_error failed]
    exact .inl ⟨conn.paths.events, rfl⟩
  rw [bind_ok notified, get_bind]
  dsimp only
  rcases PathMap.insertPath_spec { conn.paths with events }
      (recvPath inScidSeq bufLen conn.maxAmplificationFactor addrs) conn.isServer with
    ⟨reason, failed⟩ | ⟨pid, paths, made, inserted⟩
  · left
    refine ⟨events, ?_⟩
    rw [bind_error (withPaths_error failed)]
    rfl
  · right
    rw [bind_ok (withPaths_ok made)]
    have inserted : PathMap.Inserted conn.paths
        (recvPath inScidSeq bufLen conn.maxAmplificationFactor addrs) pid paths :=
      ⟨inserted.addrs, inserted.here, inserted.others, inserted.kept⟩
    cases inScidPid with
    | some inScidPid => exact ⟨pid, paths, conn.ids, rfl, inserted, .inl rfl⟩
    | none =>
      refine ⟨pid, paths, _, ?_, inserted, .inr ⟨rfl, rfl⟩⟩
      rw [after_bind_pure, after_withIds]

end CreateRecvPath

section Send

variable {conn : Connection} {invariant : Connection → Prop}

/-- The connection after a datagram of `count` bytes was charged to a path. -/
def charged (conn : Connection) (pid count : Nat) : Connection :=
  { conn with paths := conn.paths.update pid fun path => { path with maxSendBytes := path.maxSendBytes - count } }

theorem selectCids_error {path : Path} {ty : PacketType} {reason : Error}
    (failed : selectCids conn path ty = .error reason) : reason = .outOfIdentifiers ∨ reason = .invalidState := by
  rw [selectCids] at failed
  split at failed
  · cases failed
    exact .inl rfl
  · right
    split at failed
    · cases failed
      rfl
    · split at failed
      · split at failed
        · cases failed
        · cases failed
          rfl
      · split at failed
        · cases failed
          rfl
        · cases failed

theorem sendSingle_spec (pid : Nat) (packet : SentPacket) (left : Nat) (conn : Connection) :
    (packet.size ≤ left ∧ sendSingle pid packet left conn = .ok packet.size (conn.charged pid packet.size)) ∨
      (left < packet.size ∧ sendSingle pid packet left conn = .error .bufferTooShort conn) ∨
      ∃ reason, reason ≠ .bufferTooShort ∧ reason ≠ .done ∧ sendSingle pid packet left conn = .error reason conn := by
  rw [sendSingle]
  cases present : conn.paths.get pid with
  | none => exact .inr (.inr ⟨_, by decide, by decide, bind_error (getPath_none present) _⟩)
  | some path =>
    rw [bind_ok (getPath_some present), get_bind]
    cases selected : selectCids conn path packet.ty with
    | error reason =>
      refine .inr (.inr ⟨reason, ?_, ?_, rfl⟩)
      all_goals
        rintro rfl
        rcases selectCids_error selected with same | same <;> cases same
    | ok cids =>
      dsimp only
      split
      · rename_i short
        exact .inr (.inl ⟨short, rfl⟩)
      · rename_i room
        rw [bind_ok (changePath_some present _)]
        exact .inl ⟨Nat.le_of_not_lt room, rfl⟩

section

variable (kept : ∀ conn pid count, invariant conn → invariant (conn.charged pid count))

include kept

theorem preserves_sendPackets (sendPid : Nat) (datagram : Coalesced) (packets : List SentPacket) :
    Preserves invariant (sendPackets sendPid datagram packets) := by
  induction packets generalizing datagram with
  | nil => exact preserves_pure _
  | cons packet rest ih =>
    constructor
    intro conn holds
    rw [sendPackets]
    beta_reduce
    split
    · exact holds
    rcases sendSingle_spec sendPid packet datagram.left conn with
      ⟨_, sent⟩ | ⟨_, failed⟩ | ⟨reason, _, _, failed⟩
    · rw [sent]
      dsimp only
      split
      · exact kept conn sendPid packet.size holds
      · exact (ih _).kept _ (kept conn sendPid packet.size holds)
    · rw [failed]
      exact holds
    · rw [failed]
      split <;> simp_all [after]

theorem preserves_sendOnPath (sendPid outLen maxDatagram : Nat) (packets : List SentPacket) :
    Preserves invariant (sendOnPath sendPid outLen maxDatagram packets) := by
  apply Preserves.ite (preserves_throw _)
  apply (preserves_getPath sendPid).bind
  intro path
  apply preserves_get.bind
  intro conn
  apply (preserves_sendPackets kept sendPid _ packets).bind
  intro datagram
  exact .ite (preserves_throw _) (preserves_pure _)

end

end Send

end Quiche.Connection
