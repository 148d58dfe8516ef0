import Quiche.Connection.Network

namespace Quiche.Connection

open Data

section Within

/-- The path has no more credit than before, and stays verified. -/
structure PathWithin (path old : Path) : Prop where
  credit : path.maxSendBytes ≤ old.maxSendBytes
  verified : old.verifiedPeerAddress = true → path.verifiedPeerAddress = true

/-- No path has more credit than before. -/
structure Within (next conn : Connection) : Prop where
  isServer : next.isServer = conn.isServer
  factor : next.maxAmplificationFactor = conn.maxAmplificationFactor
  paths : PathMap.Alike PathWithin next.paths conn.paths

theorem PathWithin.refl (path : Path) : PathWithin path path := ⟨Nat.le_refl _, id⟩

theorem PathWithin.trans (first second third : Path) (left : PathWithin third second)
    (right : PathWithin second first) : PathWithin third first :=
  ⟨Nat.le_trans left.credit right.credit, fun verified => left.verified (right.verified verified)⟩

@[simp] theorem promoteTo_maxSendBytes (path : Path) (state : PathState) :
    (path.promoteTo state).maxSendBytes = path.maxSendBytes := by
  rw [Path.promoteTo]
  split <;> rfl

@[simp] theorem promoteTo_verifiedPeerAddress (path : Path) (state : PathState) :
    (path.promoteTo state).verifiedPeerAddress = path.verifiedPeerAddress := by
  rw [Path.promoteTo]
  split <;> rfl

theorem onResponseReceived_within (path : Path) (data : BitVec 64) :
    PathWithin (path.onResponseReceived data).1 path := by
  rw [Path.onResponseReceived]
  dsimp only
  split
  · split <;> constructor <;> simp [Path.requestValidation]
  · constructor <;> simp

theorem countProbeLost_within (path : Path) (lostProbeTime rtt : Nat) :
    PathWithin (path.countProbeLost lostProbeTime rtt) path := by
  rw [Path.countProbeLost]
  split
  · split <;> exact ⟨Nat.le_refl _, id⟩
  · exact ⟨Nat.le_refl _, id⟩

theorem onLossDetectionTimeout_within (path : Path) (now rtt : Nat) (isServer : Bool) :
    PathWithin (path.onLossDetectionTimeout now rtt isServer) path := by
  rw [Path.onLossDetectionTimeout]
  dsimp only
  split
  · exact ⟨Nat.le_refl _, id⟩
  · rename_i challenge _
    let left := { path with
      inFlightChallenges := path.inFlightChallenges.filter fun challenge => challenge.sentTime > now }
    have counted := countProbeLost_within left challenge.sentTime rtt
    split <;> exact ⟨counted.credit, counted.verified⟩

theorem startMigrating_within (path : Path) : PathWithin (PathMap.startMigrating path) path := by
  rw [PathMap.startMigrating]
  split <;> exact ⟨Nat.le_refl _, id⟩

theorem pathsWithin_onResponseReceived (data : BitVec 64) (map : PathMap) :
    PathMap.Alike PathWithin (after (PathMap.onResponseReceived data map)) map := by
  apply PathMap.Alike.onResponseReceived PathWithin.refl
  intro path migrating
  have answered := onResponseReceived_within path data
  exact ⟨answered.credit, answered.verified⟩

theorem pathsWithin_setActivePath (pid : Nat) (map : PathMap) :
    PathMap.Alike PathWithin (after (PathMap.setActivePath pid map)) map := by
  apply PathMap.Alike.setActivePath PathWithin.refl PathWithin.trans
  · exact fun _ _ => ⟨Nat.le_refl _, id⟩
  · exact startMigrating_within

end Within

section Attempts

variable {origin conn next : Connection} {pid : Nat}

theorem Within.refl (conn : Connection) : Within conn conn := ⟨rfl, rfl, .refl PathWithin.refl conn.paths⟩

theorem Within.trans {first second third : Connection} (left : Within third second)
    (right : Within second first) : Within third first :=
  ⟨left.isServer.trans right.isServer, left.factor.trans right.factor, .trans PathWithin.trans left.paths right.paths⟩

theorem within_withIds {Result : Type} (action : ConnectionIdentifiers.Action Result) :
    Preserves (Within · origin) (withIds action) :=
  preserves_withIds fun _ within => ⟨within.isServer, within.factor, within.paths⟩

theorem within_withPaths {Result : Type} {action : PathMap.Action Result}
    (kept : ∀ map, PathMap.Alike PathWithin (after (action map)) map) :
    Preserves (Within · origin) (withPaths action) := preserves_withPaths fun conn within =>
    ⟨within.isServer, within.factor, .trans PathWithin.trans (kept conn.paths) within.paths⟩

theorem within_changePath {change : Path → Path} (kept : ∀ path, PathWithin (change path) path) :
    Preserves (Within · origin) (changePath pid change) := preserves_changePath fun _ _ within _ =>
    ⟨within.isServer, within.factor,
      .trans PathWithin.trans (.update PathWithin.refl fun path _ => kept path) within.paths⟩

theorem within_setDcid (pid : Nat) (seq : Option Nat) :
    Preserves (Within · origin) (changePath pid fun path => { path with activeDcidSeq := seq }) :=
  within_changePath fun _ => ⟨Nat.le_refl _, id⟩

theorem within_setScid (pid : Nat) (seq : Option Nat) :
    Preserves (Within · origin) (changePath pid fun path => { path with activeScidSeq := seq }) :=
  within_changePath fun _ => ⟨Nat.le_refl _, id⟩

theorem within_noteScid (recvPid inScidSeq : Nat) (dcid : List UInt8) :
    Preserves (Within · origin) (noteScid recvPid inScidSeq dcid) := by
  rw [noteScid]
  apply (preserves_getPath recvPid).bind
  intro path
  apply preserves_get.bind
  intro conn
  apply Preserves.ite (preserves_pure _)
  apply (within_setScid _ _).bind
  intro _
  apply (within_withIds _).bind
  intro _
  exact preserves_pure _

theorem within_repairDcid (dcidSeq pid : Nat) : Preserves (Within · origin) (repairDcid dcidSeq pid) := by
  rw [repairDcid]
  apply (preserves_getPath pid).bind
  intro path
  apply Preserves.ite (preserves_pure _)
  apply preserves_get.bind
  intro conn
  split
  · apply (within_setDcid _ _).bind
    intro _
    exact within_withIds _
  · exact within_setDcid _ _

theorem within_repairDcids (retired : List (Nat × Nat)) : Preserves (Within · origin) (repairDcids retired) := by
  induction retired with
  | nil => exact preserves_pure _
  | cons pair rest ih => exact (within_repairDcid pair.1 pair.2).bind fun _ => ih

theorem within_processNewConnectionId (seqNum retirePriorTo : Nat) (connId : List UInt8)
    (resetToken : BitVec 128) (wrap : Nat) :
    Preserves (Within · origin) (processNewConnectionId seqNum retirePriorTo connId resetToken wrap) := by
  constructor
  intro conn within
  have renewed : ∀ ids, Within { conn with ids } origin := fun _ => ⟨within.isServer, within.factor, within.paths⟩
  rw [processNewConnectionId]
  split
  · exact within
  · split
    · exact (within_repairDcids _).kept _ (renewed _)
    · exact ((within_repairDcids _).bind fun _ => preserves_throw _).kept _ (renewed _)

theorem within_releaseScid (seqNum : Nat) (pid : Option Nat) :
    Preserves (Within · origin) (releaseScid seqNum pid) := by
  cases pid with
  | none => exact preserves_pure _
  | some pid =>
    apply (preserves_getPath pid).bind
    intro path
    exact .ite (within_setScid _ _) (preserves_pure _)

theorem within_processRetireConnectionId (seqNum : Nat) (hdrDcid : List UInt8) :
    Preserves (Within · origin) (processRetireConnectionId seqNum hdrDcid) := by
  rw [processRetireConnectionId]
  apply preserves_get.bind
  intro conn
  apply Preserves.ite (preserves_throw _)
  exact (within_withIds _).bind fun pid => within_releaseScid seqNum pid

theorem within_allocateDcids (pids : List Nat) : Preserves (Within · origin) (allocateDcids pids) := by
  induction pids with
  | nil => exact preserves_pure _
  | cons pid rest ih =>
    rw [allocateDcids]
    apply preserves_get.bind
    intro conn
    apply Preserves.ite
    · exact (within_setDcid _ _).bind fun _ => ih
    · split
      · exact preserves_pure _
      · apply (within_withIds _).bind
        intro _
        exact (within_setDcid _ _).bind fun _ => ih

theorem within_reuseDcid (newPid activePathId : Nat) : Preserves (Within · origin) (reuseDcid newPid activePathId) := by
  apply (preserves_getPath newPid).bind
  intro newPath
  apply preserves_get.bind
  intro conn
  apply Preserves.ite _ (preserves_pure _)
  apply (preserves_getPath activePathId).bind
  intro oldPath
  exact within_setDcid newPid oldPath.activeDcidSeq

theorem within_onPeerMigrated (newPid : Nat) : Preserves (Within · origin) (onPeerMigrated newPid) := by
  rw [onPeerMigrated]
  apply preserves_get.bind
  intro conn
  split
  · exact preserves_throw _
  · apply Preserves.ite (preserves_pure _)
    apply (within_withPaths (pathsWithin_setActivePath newPid)).bind
    exact fun _ => within_reuseDcid newPid _

end Attempts

section Receive

variable {origin conn next : Connection} {pid : Nat} {addrs : SocketAddr × SocketAddr}

def credited (conn : Connection) (pid len : Nat) : Connection :=
  { conn with paths := conn.paths.update pid fun path =>
      { path with maxSendBytes := path.maxSendBytes + len * conn.maxAmplificationFactor } }

theorem within_credited (conn : Connection) (pid len : Nat) : Within conn (conn.credited pid len) :=
  ⟨rfl, rfl, .of_update PathWithin.refl fun _ _ => ⟨Nat.le_add_right _ _, id⟩⟩

theorem within_undecryptable (within : Within conn origin) (waiting : List (Nat × SocketAddr × SocketAddr)) :
    Within { conn with undecryptablePkts := waiting } origin := ⟨within.isServer, within.factor, within.paths⟩

theorem within_recvPackets_known (recvPid : Nat) (addrs : SocketAddr × SocketAddr) (left : Nat)
    (packets : List ReceivedPacket) : Preserves (Within · origin) (recvPackets (some recvPid) addrs left packets) := by
  apply preserves_recvPackets
  · exact fun conn waiting within => within_undecryptable within waiting
  · intro dcid bufLen
    constructor
    intro conn within
    rw [getOrCreateRecvPathId]
    split
    · exact within
    · exact (within_noteScid _ _ _).kept conn within

theorem recv_known (known : conn.paths.pathIdFromAddrs addrs = some pid) (len : Nat) (packets : List ReceivedPacket) :
    Within (after (recv addrs len packets conn)) (conn.credited pid len) := by
  rw [recv]
  split
  · exact within_credited conn pid len
  rw [get_bind, known]
  dsimp only
  cases present : conn.paths.get pid with
  | none =>
    rw [bind_error (getPath_none present)]
    exact within_credited conn pid len
  | some path =>
    rw [bind_ok (getPath_some present)]
    split
    · rw [bind_ok (changePath_some present _)]
      exact (within_recvPackets_known pid addrs len packets).kept _ (.refl _)
    · exact (within_recvPackets_known pid addrs len packets).kept _ (within_credited conn pid len)

/-- The path of the datagram has at most the credit, and the others no more than before. -/
structure Opened (conn next : Connection) (pid credit : Nat) : Prop where
  isServer : next.isServer = conn.isServer
  factor : next.maxAmplificationFactor = conn.maxAmplificationFactor
  here : ∀ path, next.paths.get pid = some path → path.maxSendBytes ≤ credit
  others : ∀ other path, next.paths.get other = some path → other ≠ pid →
    ∃ old, conn.paths.get other = some old ∧ PathWithin path old

/-- The datagram came in on no path, or its path has at most the credit. -/
def Arrived (conn : Connection) (addrs : SocketAddr × SocketAddr) (credit : Nat) (next : Connection) : Prop :=
  (next.paths.pathIdFromAddrs addrs = none ∧ Within next conn) ∨
    ∃ pid, next.paths.pathIdFromAddrs addrs = some pid ∧ Opened conn next pid credit

theorem Arrived.mono {credit more : Nat} (arrived : Arrived conn addrs credit next) (le : credit ≤ more) :
    Arrived conn addrs more next := by
  rcases arrived with within | ⟨pid, mapped, opened⟩
  · exact .inl within
  · exact .inr ⟨pid, mapped, opened.isServer, opened.factor,
      fun path found => Nat.le_trans (opened.here path found) le, opened.others⟩

theorem Arrived.of_undecryptable {waiting : List (Nat × SocketAddr × SocketAddr)} {credit : Nat}
    (arrived : Arrived { conn with undecryptablePkts := waiting } addrs credit next) :
    Arrived conn addrs credit next := by
  rcases arrived with ⟨unknown, within⟩ | ⟨pid, mapped, opened⟩
  · exact .inl ⟨unknown, within.isServer, within.factor, within.paths⟩
  · exact .inr ⟨pid, mapped, opened.isServer, opened.factor, opened.here, opened.others⟩

section

variable (unknown : conn.paths.pathIdFromAddrs addrs = none)

include unknown

theorem createRecvPath_arrived (inScidSeq : Nat)
    (inScidPid : Option Nat) (bufLen : Nat) : Arrived conn addrs (bufLen * conn.maxAmplificationFactor)
      (after (createRecvPath inScidSeq inScidPid bufLen addrs conn)) := by
  rcases createRecvPath_spec inScidSeq inScidPid bufLen addrs conn with
    ⟨events, same⟩ | ⟨pid, paths, ids, same, inserted, _⟩
  · rw [same]
    exact .inl ⟨unknown, rfl, rfl, .refl PathWithin.refl conn.paths⟩
  · rw [same]
    refine .inr ⟨pid, inserted.addrs, rfl, rfl, ?_, ?_⟩
    · intro path found
      cases inserted.here.symm.trans found
      exact Nat.le_refl _
    · intro other path found different
      exact ⟨path, inserted.others other path found different, .refl path⟩

theorem recvPackets_unknown (left : Nat)
    (packets : List ReceivedPacket) : Arrived conn addrs (left * conn.maxAmplificationFactor)
      (after (recvPackets none addrs left packets conn)) := by
  induction packets generalizing left conn with
  | nil => cases left <;> exact .inl ⟨unknown, .refl conn⟩
  | cons packet rest ih =>
    cases left with
    | zero => exact .inl ⟨unknown, .refl conn⟩
    | succ left =>
      have fewer : ∀ size, (left + 1 - size) * conn.maxAmplificationFactor ≤ (left + 1) * conn.maxAmplificationFactor :=
        fun size => Nat.mul_le_mul_right _ (Nat.sub_le _ _)
      cases packet with
      | long size => exact (ih unknown _).mono (fewer size)
      | undecryptable size =>
        rw [recvPackets, get_bind]
        · split
          · rw [modify_bind]
            apply Arrived.mono _ (fewer size)
            apply Arrived.of_undecryptable
            apply ih
            exact unknown
          · exact .inl ⟨unknown, .refl conn⟩
        · simp
      | short dcid =>
        show Arrived conn addrs _ (after (recvShort none dcid (left + 1) addrs conn))
        rw [after_recvShort, getOrCreateRecvPathId]
        split
        · exact .inl ⟨unknown, .refl conn⟩
        · exact createRecvPath_arrived unknown _ _ _
      | dropped => exact .inl ⟨unknown, .refl conn⟩

theorem recv_unknown (len : Nat) (packets : List ReceivedPacket) :
    Arrived conn addrs (len * conn.maxAmplificationFactor) (after (recv addrs len packets conn)) := by
  rw [recv]
  split
  · exact .inl ⟨unknown, .refl conn⟩
  rw [get_bind, unknown]
  dsimp only
  split
  · exact recvPackets_unknown unknown len packets
  · exact .inl ⟨unknown, .refl conn⟩

end

/-- A path with these addresses gains nothing from a datagram, since it is verified. -/
def Uncredited (conn : Connection) (addrs : SocketAddr × SocketAddr) : Prop :=
  ∀ pid ∈ conn.paths.pathIdFromAddrs addrs, ∀ path ∈ conn.paths.get pid, path.verifiedPeerAddress = true

instance (conn : Connection) (addrs : SocketAddr × SocketAddr) : Decidable (conn.Uncredited addrs) :=
  inferInstanceAs (Decidable (∀ _ ∈ _, _))

theorem recvPackets_long (recvPid : Option Nat) (addrs : SocketAddr × SocketAddr) (len : Nat)
    (conn : Connection) : recvPackets recvPid addrs len [.long len] conn = .ok () conn := by
  cases len with
  | zero => rfl
  | succ len =>
    rw [recvPackets, Nat.sub_self]
    · rfl
    · simp

theorem recv_uncredited {len : Nat} (uncredited : conn.Uncredited addrs) :
    after (recv addrs len [.long len] conn) = conn := by
  rw [recv]
  split
  · rfl
  rw [get_bind]
  cases known : conn.paths.pathIdFromAddrs addrs with
  | some pid =>
    dsimp only
    cases present : conn.paths.get pid with
    | none => rw [bind_error (getPath_none present), after]
    | some path =>
      rw [bind_ok (getPath_some present), uncredited pid known path present]
      simp only [Bool.not_true, Bool.and_false, Bool.false_eq_true, if_false, recvPackets_long, after]
  | none =>
    dsimp only
    split
    · rw [recvPackets_long, after]
    · rfl

theorem within_processUndecrypted (uncredited : ∀ waiting ∈ conn.undecryptablePkts.head?, conn.Uncredited waiting.2) :
    Within (after (processUndecrypted conn)) conn := by
  rw [processUndecrypted]
  split
  · exact .refl conn
  · rename_i len addrs rest waits
    have first : conn.Uncredited addrs := uncredited (len, addrs) (by rw [waits]; rfl)
    have same : after (recv addrs len [.long len] { conn with undecryptablePkts := rest }) =
        { conn with undecryptablePkts := rest } := recv_uncredited first
    have within := within_undecryptable (.refl conn) rest
    rw [← same] at within
    split
    · rename_i called
      rw [called] at within
      exact within
    · rename_i called
      rw [called] at within
      exact within_undecryptable within []

end Receive

section Send

variable {conn next origin : Connection} {pid : Nat}

theorem charged_within (conn : Connection) (pid count : Nat) : Within (conn.charged pid count) conn :=
  ⟨rfl, rfl, .update PathWithin.refl fun _ _ => ⟨Nat.sub_le _ _, id⟩⟩

theorem charged_zero (conn : Connection) (pid : Nat) : Within conn (conn.charged pid 0) :=
  ⟨rfl, rfl, .of_update PathWithin.refl fun _ _ => ⟨Nat.le_refl _, id⟩⟩

theorem charged_charged (conn : Connection) (pid first second : Nat) :
    Within ((conn.charged pid first).charged pid second) (conn.charged pid (first + second)) := by
  refine ⟨rfl, rfl, ?_⟩
  intro other
  rw [charged, charged, charged, PathMap.get_update, PathMap.get_update, PathMap.get_update]
  cases conn.paths.get other with
  | none =>
    split <;> exact .none
  | some path =>
    split
    · exact .some ⟨Nat.le_of_eq (Nat.sub_sub _ _ _), id⟩
    · exact .some (.refl path)

def coalesce : Coalesced → List SentPacket → Coalesced
  | datagram, [] => datagram
  | datagram, packet :: rest =>
    if datagram.left = 0 ∨ datagram.left < packet.size then datagram
    else if packet.ty = .short ∨ packet.last then datagram.push packet.ty packet.size
    else coalesce (datagram.push packet.ty packet.size) rest

/-- Every byte that was added to the datagram is charged to its path. -/
structure Sent (conn next : Connection) (pid : Nat) (datagram result : Coalesced) : Prop where
  space : datagram.done + datagram.left = result.done + result.left
  grown : datagram.done ≤ result.done
  within : Within next (conn.charged pid (result.done - datagram.done))

theorem Sent.refl (conn : Connection) (pid : Nat) (datagram : Coalesced) : Sent conn conn pid datagram datagram := by
  refine ⟨rfl, Nat.le_refl _, ?_⟩
  rw [Nat.sub_self]
  exact charged_zero conn pid

theorem Sent.push {datagram result : Coalesced} {ty : PacketType} {size : Nat} (room : size ≤ datagram.left)
    (later : Sent (conn.charged pid size) next pid (datagram.push ty size) result) :
    Sent conn next pid datagram result := by
  obtain ⟨space, grown, within⟩ := later
  change datagram.done + size + (datagram.left - size) = _ at space
  change datagram.done + size ≤ result.done at grown
  refine ⟨by omega, by omega, ?_⟩
  have total : size + (result.done - (datagram.done + size)) = result.done - datagram.done := by omega
  have both := charged_charged conn pid size (result.done - (datagram.done + size))
  rw [total] at both
  exact within.trans both

theorem sendPackets_spec (pid : Nat) (datagram : Coalesced) (packets : List SentPacket) (conn : Connection) :
    (∃ next, sendPackets pid datagram packets conn = .ok (coalesce datagram packets) next ∧
        Sent conn next pid datagram (coalesce datagram packets)) ∨
      ∃ reason next, sendPackets pid datagram packets conn = .error reason next ∧ Within next conn := by
  induction packets generalizing datagram conn with
  | nil => exact .inl ⟨conn, rfl, .refl conn pid datagram⟩
  | cons packet rest ih =>
    rw [sendPackets, coalesce]
    beta_reduce
    by_cases full : datagram.left = 0
    · rw [if_pos full, if_pos (.inl full)]
      exact .inl ⟨conn, rfl, .refl conn pid datagram⟩
    rw [if_neg full]
    rcases sendSingle_spec pid packet datagram.left conn with
      ⟨room, sent⟩ | ⟨short, failed⟩ | ⟨reason, notShort, notDone, failed⟩
    · rw [sent, if_neg (by omega)]
      dsimp only
      split
      · refine .inl ⟨_, rfl, .push room (.refl _ pid _)⟩
      · rcases ih (datagram.push packet.ty packet.size) (conn.charged pid packet.size) with
          ⟨next, later, spent⟩ | ⟨reason, next, later, within⟩
        · exact .inl ⟨next, later, .push room spent⟩
        · exact .inr ⟨reason, next, later, within.trans (charged_within conn pid packet.size)⟩
    · rw [failed, if_pos (.inr short)]
      exact .inl ⟨conn, rfl, .refl conn pid datagram⟩
    · rw [failed]
      refine .inr ⟨reason, conn, ?_, .refl conn⟩
      split
      all_goals simp_all

def datagramOf (conn : Connection) (path : Path) (outLen maxDatagram : Nat) (packets : List SentPacket) : Coalesced :=
  coalesce ⟨0, datagramSpace conn path outLen maxDatagram, false⟩ packets

theorem datagramSpace_le {path : Path} (server : conn.isServer = true) (unverified : path.verifiedPeerAddress = false)
    (outLen maxDatagram : Nat) : datagramSpace conn path outLen maxDatagram ≤ path.maxSendBytes := by
  rw [datagramSpace, server, unverified]
  exact Nat.min_le_right _ _

theorem sendOnPath_spec (pid outLen maxDatagram : Nat) (packets : List SentPacket) (conn : Connection) :
    (∃ reason next, sendOnPath pid outLen maxDatagram packets conn = .error reason next ∧ Within next conn) ∨
      ∃ path next, conn.paths.get pid = some path ∧ sendOnPath pid outLen maxDatagram packets conn =
          .ok ((datagramOf conn path outLen maxDatagram packets).done +
            padLen (datagramOf conn path outLen maxDatagram packets)) next ∧
        (datagramOf conn path outLen maxDatagram packets).done ≤ datagramSpace conn path outLen maxDatagram ∧
        Within next (conn.charged pid (datagramOf conn path outLen maxDatagram packets).done) := by
  rw [sendOnPath]
  split
  · exact .inl ⟨_, conn, rfl, .refl conn⟩
  cases present : conn.paths.get pid with
  | none =>
    rw [bind_error (getPath_none present)]
    exact .inl ⟨_, conn, rfl, .refl conn⟩
  | some path =>
    rw [bind_ok (getPath_some present), get_bind]
    rcases sendPackets_spec pid ⟨0, datagramSpace conn path outLen maxDatagram, false⟩ packets conn with
      ⟨next, sent, spent⟩ | ⟨reason, next, failed, within⟩
    · rw [bind_ok sent]
      have within := spent.within
      rw [Nat.sub_zero] at within
      split
      · exact .inl ⟨_, next, rfl, within.trans (charged_within conn pid _)⟩
      · refine .inr ⟨path, next, rfl, rfl, ?_, within⟩
        have space := spent.space
        rw [Nat.zero_add] at space
        exact Nat.le.intro space.symm
    · rw [bind_error failed]
      exact .inl ⟨reason, next, rfl, within⟩

end Send

structure Traffic where
  conn : Connection
  received : Nat → Nat
  sent : Nat → Nat

namespace Traffic

variable {traffic : Traffic}

def recv (traffic : Traffic) (addrs : SocketAddr × SocketAddr) (len : Nat) (packets : List ReceivedPacket) : Traffic :=
  let conn := after (Connection.recv addrs len packets traffic.conn)
  match traffic.conn.paths.pathIdFromAddrs addrs with
  | some pid => { traffic with conn, received := Function.update traffic.received pid (traffic.received pid + len) }
  | none =>
    match conn.paths.pathIdFromAddrs addrs with
    -- The path is new, also when its identifier is not.
    | some pid =>
      { conn, received := Function.update traffic.received pid len, sent := Function.update traffic.sent pid 0 }
    | none => { traffic with conn }

def sendOnPath (traffic : Traffic) (sendPid outLen maxDatagram : Nat) (packets : List SentPacket) : Traffic :=
  match Connection.sendOnPath sendPid outLen maxDatagram packets traffic.conn with
  | .ok count conn =>
    { traffic with conn, sent := Function.update traffic.sent sendPid (traffic.sent sendPid + count) }
  | .error _ conn => { traffic with conn }

def machine : Machine Traffic Event where
  step traffic
    | .recv addrs len packets => some (traffic.recv addrs len packets)
    | .sendOnPath sendPid outLen maxDatagram packets => some (traffic.sendOnPath sendPid outLen maxDatagram packets)
    | event => some { traffic with conn := after (event.attempt traffic.conn) }

def start (conn : Connection) : Traffic := ⟨conn, fun _ => 0, fun _ => 0⟩

/-- Nothing is sent without being charged for: no padding to an unverified path, and no credit for packets that are
handled once more. -/
def Charges (traffic : Traffic) : Event → Prop
  | .sendOnPath sendPid outLen maxDatagram packets =>
    ∀ path ∈ traffic.conn.paths.get sendPid, path.verifiedPeerAddress = false →
      padLen (datagramOf traffic.conn path outLen maxDatagram packets) = 0
  | .processUndecrypted =>
    ∀ waiting ∈ traffic.conn.undecryptablePkts.head?, traffic.conn.Uncredited waiting.2
  | _ => True

instance (traffic : Traffic) (event : Event) : Decidable (traffic.Charges event) := by
  rcases event with ⟨⟩
  case sendOnPath => exact inferInstanceAs (Decidable (∀ _ ∈ _, _))
  case processUndecrypted => exact inferInstanceAs (Decidable (∀ _ ∈ _, _))
  all_goals exact .isTrue trivial

/-- What was sent to an unverified path and what may still be sent is covered by what came from it. -/
structure Covered (traffic : Traffic) (factor : Nat) : Prop where
  isServer : traffic.conn.isServer = true
  amplification : traffic.conn.maxAmplificationFactor = factor
  limit : ∀ pid path, traffic.conn.paths.get pid = some path → path.verifiedPeerAddress = false →
    traffic.sent pid + path.maxSendBytes ≤ factor * traffic.received pid

variable {factor : Nat} {conn : Connection}

theorem unverified_of_within {path old : Path} (within : PathWithin path old)
    (unverified : path.verifiedPeerAddress = false) : old.verifiedPeerAddress = false := by
  by_contra verified
  rw [within.verified (by simpa using verified)] at unverified
  cases unverified

section

variable (covered : traffic.Covered factor)

include covered

theorem Covered.within (within : Within conn traffic.conn) :
    Covered { traffic with conn } factor := by
  refine ⟨within.isServer.trans covered.isServer, within.factor.trans covered.amplification, ?_⟩
  intro pid path found unverified
  obtain ⟨old, present, later⟩ := within.paths.backward found
  have limit := covered.limit pid old present (unverified_of_within later unverified)
  exact Nat.le_trans (Nat.add_le_add_left later.credit _) limit

theorem Covered.recv (addrs : SocketAddr × SocketAddr) (len : Nat)
    (packets : List ReceivedPacket) : (traffic.recv addrs len packets).Covered factor := by
  rw [Traffic.recv]
  split
  · rename_i pid known
    have within := recv_known known len packets
    refine ⟨within.isServer.trans covered.isServer, within.factor.trans covered.amplification, ?_⟩
    intro other path found unverified
    obtain ⟨raised, present, later⟩ := within.paths.backward found
    have unverified := unverified_of_within later unverified
    simp only [credited, PathMap.get_update, covered.amplification] at present
    dsimp only
    rw [Function.update_apply]
    split at present
    · rename_i same
      obtain ⟨old, earlier, rfl⟩ := Option.map_eq_some_iff.mp present
      have limit := covered.limit other old earlier unverified
      have credit := later.credit
      dsimp only at credit
      rw [if_pos same, ← same, Nat.mul_add, Nat.mul_comm factor len]
      omega
    · rename_i different
      rw [if_neg different]
      exact Nat.le_trans (Nat.add_le_add_left later.credit _) (covered.limit other raised present unverified)
  · rename_i unknown
    rcases recv_unknown unknown len packets with ⟨unmapped, within⟩ | ⟨pid, mapped, opened⟩
    · rw [unmapped]
      exact covered.within within
    · rw [mapped]
      refine ⟨opened.isServer.trans covered.isServer, opened.factor.trans covered.amplification, ?_⟩
      intro other path found unverified
      dsimp only
      rw [Function.update_apply, Function.update_apply]
      split
      · rename_i same
        subst same
        have credit := opened.here path found
        rw [covered.amplification] at credit
        rw [Nat.zero_add, Nat.mul_comm]
        exact credit
      · rename_i different
        obtain ⟨old, present, later⟩ := opened.others other path found different
        have limit := covered.limit other old present (unverified_of_within later unverified)
        exact Nat.le_trans (Nat.add_le_add_left later.credit _) limit

theorem Covered.sendOnPath {sendPid outLen maxDatagram : Nat}
    {packets : List SentPacket} (charges : traffic.Charges (.sendOnPath sendPid outLen maxDatagram packets)) :
    (traffic.sendOnPath sendPid outLen maxDatagram packets).Covered factor := by
  rw [Traffic.sendOnPath]
  rcases sendOnPath_spec sendPid outLen maxDatagram packets traffic.conn with
    ⟨reason, next, failed, within⟩ | ⟨path, next, present, sent, space, within⟩
  · rw [failed]
    exact covered.within within
  · rw [sent]
    have later := within.trans (charged_within traffic.conn sendPid _)
    refine ⟨later.isServer.trans covered.isServer, later.factor.trans covered.amplification, ?_⟩
    intro other path' found unverified
    obtain ⟨lowered, earlier, below⟩ := within.paths.backward found
    have unverified := unverified_of_within below unverified
    simp only [charged, PathMap.get_update] at earlier
    dsimp only
    rw [Function.update_apply]
    split at earlier
    · rename_i same
      subst same
      rw [present] at earlier
      cases earlier
      change path.verifiedPeerAddress = false at unverified
      have limit := covered.limit other path present unverified
      have room := datagramSpace_le covered.isServer unverified outLen maxDatagram
      have credit := below.credit
      dsimp only at credit
      rw [if_pos rfl, charges path present unverified]
      omega
    · rename_i different
      rw [if_neg different]
      exact Nat.le_trans (Nat.add_le_add_left below.credit _) (covered.limit other lowered earlier unverified)

theorem Covered.step (event : Event) (charges : traffic.Charges event) :
    ∃ next, machine.step traffic event = some next ∧ next.Covered factor := by
  have same : Within traffic.conn traffic.conn := .refl traffic.conn
  cases event with
  | recv addrs len packets => exact ⟨_, rfl, covered.recv addrs len packets⟩
  | sendOnPath sendPid outLen maxDatagram packets => exact ⟨_, rfl, covered.sendOnPath charges⟩
  | processUndecrypted => exact ⟨_, rfl, covered.within (within_processUndecrypted charges)⟩
  | newConnectionId seqNum retirePriorTo connId resetToken wrap =>
    have kept := (within_processNewConnectionId seqNum retirePriorTo connId resetToken wrap).kept _ same
    exact ⟨_, rfl, covered.within kept⟩
  | retireConnectionId seqNum hdrDcid =>
    exact ⟨_, rfl, covered.within ((within_processRetireConnectionId seqNum hdrDcid).kept _ same)⟩
  | reallocateDcids => exact ⟨_, rfl, covered.within ((within_allocateDcids _).kept _ same)⟩
  | peerMigrated newPid =>
    have migrated : Preserves (Within · traffic.conn) (Event.peerMigrated newPid).attempt :=
      preserves_get.bind fun _ => .ite (within_onPeerMigrated newPid) (preserves_pure _)
    exact ⟨_, rfl, covered.within (migrated.kept _ same)⟩
  | pathResponse data =>
    have answered : Preserves (Within · traffic.conn) (Event.pathResponse data).attempt :=
      within_withPaths (pathsWithin_onResponseReceived data)
    exact ⟨_, rfl, covered.within (answered.kept _ same)⟩
  | handshakePacket recvPid =>
    have verified : Preserves (Within · traffic.conn) (Event.handshakePacket recvPid).attempt :=
      preserves_get.bind fun _ => .ite (within_changePath fun _ => ⟨Nat.le_refl _, fun _ => rfl⟩) (preserves_pure _)
    exact ⟨_, rfl, covered.within (verified.kept _ same)⟩
  | handshakeCompleted => exact ⟨_, rfl, covered.within (within_undecryptable same [])⟩
  | challengeSent pid data pktSize sentTime =>
    have challenged : Preserves (Within · traffic.conn) (Event.challengeSent pid data pktSize sentTime).attempt :=
      within_changePath fun path => by
        constructor <;> simp [Path.addChallengeSent, Path.onChallengeSent]
    exact ⟨_, rfl, covered.within (challenged.kept _ same)⟩
  | lossDetectionTimeout pid now rtt =>
    have expired : Preserves (Within · traffic.conn) (Event.lossDetectionTimeout pid now rtt).attempt :=
      preserves_get.bind fun conn =>
        within_changePath fun path => onLossDetectionTimeout_within path now rtt conn.isServer
    exact ⟨_, rfl, covered.within (expired.kept _ same)⟩
  | newScid cid resetToken retireIfNeeded =>
    have renewed : Preserves (Within · traffic.conn) (Event.newScid cid resetToken retireIfNeeded).attempt :=
      (within_withIds _).bind fun _ => preserves_pure _
    exact ⟨_, rfl, covered.within (renewed.kept _ same)⟩
  | setSourceConnIdLimit limit => exact ⟨_, rfl, covered.within ⟨rfl, rfl, same.paths⟩⟩

end

theorem start_covered (config : Config) (scid dcid : List UInt8) (resetToken : Option (BitVec 128))
    (localAddr peerAddr : SocketAddr) (addressVerified : Bool) :
    (start (established config scid dcid resetToken localAddr peerAddr addressVerified true)).Covered
      config.maxAmplificationFactor := by
  refine ⟨rfl, rfl, ?_⟩
  intro pid path found _
  change (Slab.empty.insert _).get pid = some path at found
  rw [Slab.get_insert] at found
  split at found
  · cases found
    exact Nat.zero_le _
  · simp [Slab.empty, Slab.get] at found

/-- As long as no datagram is padded and no buffered packet is handled on a path whose peer
address is not verified, a server sends no more on such a path than what it received there,
times the amplification factor. -/
theorem amplification_limited (config : Config) (scid dcid : List UInt8) (resetToken : Option (BitVec 128))
    (localAddr peerAddr : SocketAddr) (addressVerified : Bool) (events : List Event) (charges : machine.Guarded Charges
      (start (established config scid dcid resetToken localAddr peerAddr addressVerified true)) events) :
    ∃ traffic, machine.run
        (start (established config scid dcid resetToken localAddr peerAddr addressVerified true)) events =
          some traffic ∧ ∀ pid path, traffic.conn.paths.get pid = some path → path.verifiedPeerAddress = false →
        traffic.sent pid ≤ config.maxAmplificationFactor * traffic.received pid := by
  obtain ⟨traffic, completed, covered⟩ := machine.run_total_of_guarded
    (fun traffic event covered charges => Covered.step covered event charges)
    (start_covered config scid dcid resetToken localAddr peerAddr addressVerified) charges
  refine ⟨traffic, completed, ?_⟩
  intro pid path found unverified
  exact Nat.le_trans (Nat.le_add_right _ _) (covered.limit pid path found unverified)

/-- The server answers an Initial packet, and a packet on a second path. -/
theorem amplification_limited_two_paths :
    ∃ traffic, machine.run (start (established serverConfig [1] [2] none ⟨[1], 1⟩ ⟨[2], 2⟩ false true))
        [.recv (⟨[1], 1⟩, ⟨[2], 2⟩) 1200 [.long 1200],
          .sendOnPath 0 1500 1350 [⟨.initial, 700, false⟩, ⟨.handshake, 500, false⟩],
          .newConnectionId 1 0 [3] 0 0, .newScid [4] 0 false,
          .recv (⟨[1], 1⟩, ⟨[3], 3⟩) 100 [.short [4]], .reallocateDcids,
          .sendOnPath 1 1500 1350 [⟨.short, 300, true⟩]] = some traffic ∧
      (∀ pid path, traffic.conn.paths.get pid = some path → path.verifiedPeerAddress = false →
        traffic.sent pid ≤ 3 * traffic.received pid) ∧ traffic.sent 1 = 300 ∧ traffic.received 1 = 100 :=
  exists_reached_and (fun traffic => traffic.sent 1 = 300 ∧ traffic.received 1 = 100)
    (amplification_limited serverConfig [1] [2] none ⟨[1], 1⟩ ⟨[2], 2⟩ false _ (by decide +kernel)) (by decide +kernel)
    fun _ limited shown => ⟨limited, shown⟩

/-- Datagrams with an Initial packet of 100 bytes are padded to 1200 bytes, and only 100
bytes of each count. -/
theorem padding_exceeds_limit :
    ∃ traffic, machine.run (start (established serverConfig [1] [2] none ⟨[1], 1⟩ ⟨[2], 2⟩ false true))
        [.recv (⟨[1], 1⟩, ⟨[2], 2⟩) 1200 [.long 1200], .sendOnPath 0 1500 1350 [⟨.initial, 100, false⟩],
          .sendOnPath 0 1500 1350 [⟨.initial, 100, false⟩], .sendOnPath 0 1500 1350 [⟨.initial, 100, false⟩],
          .sendOnPath 0 1500 1350 [⟨.initial, 100, false⟩]] = some traffic ∧
      ¬ ∀ pid path, traffic.conn.paths.get pid = some path → path.verifiedPeerAddress = false →
        traffic.sent pid ≤ 3 * traffic.received pid := by
  refine ⟨_, rfl, ?_⟩
  intro limited
  have exceeded : 4800 ≤ 3 * 1200 := limited 0 _ rfl rfl
  contradiction

end Traffic

end Quiche.Connection
