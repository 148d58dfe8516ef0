import Mathlib.Data.List.AList
import Quiche.Data.Slab
import Quiche.Error

namespace Quiche

open Data

def minClientInitialLen : Nat := 1200

def minProbingSize : Nat := 25

def maxProbingTimeouts : Nat := 3

structure SocketAddr where
  ip : List UInt8
  port : UInt16
deriving DecidableEq

inductive PathState where
  | failed
  | unknown
  | validating
  | validatingMtu
  | validated
deriving DecidableEq

def PathState.rank : PathState → Nat
  | failed => 0
  | unknown => 1
  | validating => 2
  | validatingMtu => 3
  | validated => 4

inductive PathEvent where
  | new (localAddr peerAddr : SocketAddr)
  | validated (localAddr peerAddr : SocketAddr)
  | closed (localAddr peerAddr : SocketAddr)
  | reusedSourceConnectionId (seq : Nat) (old new : SocketAddr × SocketAddr)
  | peerMigrated (localAddr peerAddr : SocketAddr)
deriving DecidableEq

structure Challenge where
  data : BitVec 64
  size : Nat
  sentTime : Nat
deriving DecidableEq

/-- A network path. Its method `active()` is `isActive` here. -/
structure Path where
  localAddr : SocketAddr
  peerAddr : SocketAddr
  activeScidSeq : Option Nat
  activeDcidSeq : Option Nat
  state : PathState
  active : Bool
  inFlightChallenges : List Challenge
  maxChallengeSize : Nat
  probingLost : Nat
  lastProbeLostTime : Option Nat
  maxSendBytes : Nat
  verifiedPeerAddress : Bool
  challengeRequested : Bool
  migrating : Bool
deriving DecidableEq

namespace Path

def new (localAddr peerAddr : SocketAddr) (isInitial : Bool) : Path where
  localAddr := localAddr
  peerAddr := peerAddr
  activeScidSeq := if isInitial then some 0 else none
  activeDcidSeq := if isInitial then some 0 else none
  state := if isInitial then .validated else .unknown
  active := false
  inFlightChallenges := []
  maxChallengeSize := 0
  probingLost := 0
  lastProbeLostTime := none
  maxSendBytes := 0
  verifiedPeerAddress := false
  challengeRequested := false
  migrating := false

def working (path : Path) : Bool := path.state.rank > PathState.failed.rank

def isActive (path : Path) : Bool := path.active && path.working && path.activeDcidSeq.isSome

def unused (path : Path) : Bool := !path.isActive && path.activeDcidSeq.isNone

def promoteTo (path : Path) (state : PathState) : Path :=
  if path.state.rank < state.rank then { path with state } else path

def underValidation (path : Path) : Bool := path.state == .validating || path.state == .validatingMtu

def requestValidation (path : Path) : Path := { path with challengeRequested := true }

def onChallengeSent (path : Path) : Path :=
  { path.promoteTo .validating with challengeRequested := false }

def addChallengeSent (path : Path) (data : BitVec 64) (pktSize sentTime : Nat) : Path :=
  let path := path.onChallengeSent
  { path with inFlightChallenges := path.inFlightChallenges ++ [⟨data, pktSize, sentTime⟩] }

def hasPendingChallenge (path : Path) (data : BitVec 64) : Bool :=
  path.inFlightChallenges.any fun challenge => challenge.data == data

def challengeSize (challenges : List Challenge) (data : BitVec 64) : Nat :=
  ((challenges.filter fun challenge => challenge.data == data).getLast?.map (·.size)).getD 0

def onResponseReceived (path : Path) (data : BitVec 64) : Path × Bool :=
  let size := challengeSize path.inFlightChallenges data
  let path := { path with
    verifiedPeerAddress := true
    probingLost := 0
    inFlightChallenges := path.inFlightChallenges.filter fun challenge => challenge.data != data }
  let path := path.promoteTo .validatingMtu
  let path := { path with maxChallengeSize := max path.maxChallengeSize size }
  if path.state = .validatingMtu then
    if path.maxChallengeSize ≥ minClientInitialLen then (path.promoteTo .validated, true)
    else (path.requestValidation, false)
  else (path, false)

def onFailedValidation (path : Path) : Path := { path with state := .failed, active := false }

def countProbeLost (path : Path) (lostProbeTime rtt : Nat) : Path :=
  let counted := { path with
    probingLost := path.probingLost + 1
    lastProbeLostTime := some lostProbeTime }
  match path.lastProbeLostTime with
  | some last => if lostProbeTime - last ≥ rtt then counted else path
  | none => counted

/-- The part of `on_loss_detection_timeout` after recovery has done its own; `rtt` is its
estimate of the round trip. -/
def onLossDetectionTimeout (path : Path) (now rtt : Nat) (isServer : Bool) : Path :=
  let lost := path.inFlightChallenges.find? fun challenge => challenge.sentTime ≤ now
  let path := { path with
    inFlightChallenges := path.inFlightChallenges.filter fun challenge => challenge.sentTime > now }
  match lost with
  | none => path
  | some challenge =>
    let path := path.countProbeLost challenge.sentTime rtt
    if path.probingLost ≥ maxProbingTimeouts ∨ (isServer ∧ path.maxSendBytes < minProbingSize) then
      path.onFailedValidation
    else path.requestValidation

end Path

structure PathMap where
  paths : Slab Path
  maxConcurrentPaths : Nat
  addrsToPaths : AList fun _ : SocketAddr × SocketAddr => Nat
  events : List PathEvent
  isServer : Bool

namespace PathMap

abbrev Action := EStateM Error PathMap

def new (initialPath : Path) (maxConcurrentPaths : Nat) (isServer : Bool) : PathMap where
  paths := Slab.empty.insert { initialPath with active := true }
  maxConcurrentPaths := maxConcurrentPaths
  addrsToPaths := AList.singleton (initialPath.localAddr, initialPath.peerAddr) 0
  events := []
  isServer := isServer

def get (map : PathMap) (pathId : Nat) : Option Path := map.paths.get pathId

/-- Changes the path that `get_mut` finds. -/
def update (map : PathMap) (pathId : Nat) (change : Path → Path) : PathMap :=
  { map with paths := map.paths.update pathId change }

def getActiveWithPid (map : PathMap) : Option (Nat × Path) := map.paths.iter.find? fun (_, path) => path.isActive

def getActivePathId (map : PathMap) : Option Nat := map.getActiveWithPid.map (·.1)

def pathIdFromAddrs (map : PathMap) (addrs : SocketAddr × SocketAddr) : Option Nat := map.addrsToPaths.lookup addrs

def notifyEvent (map : PathMap) (event : PathEvent) : PathMap :=
  { map with events := map.events ++ [event] }

def makeRoomForNewPath : Action Unit := fun map =>
  if map.paths.len < map.maxConcurrentPaths then .ok () map
  else
    match map.paths.iter.find? fun (_, path) => path.unused with
    | none => .error .done map
    | some (pid, path) =>
      .ok () (notifyEvent
        { map with
          paths := map.paths.remove pid
          addrsToPaths := map.addrsToPaths.erase (path.localAddr, path.peerAddr) }
        (.closed path.localAddr path.peerAddr))

/-- The part of `insert_path` that records the path. -/
def recordPath (path : Path) (isServer : Bool) : Action Nat := fun map =>
  let pid := map.paths.nextKey
  let map := { map with
    paths := map.paths.insert path
    addrsToPaths := map.addrsToPaths.insert (path.localAddr, path.peerAddr) pid }
  .ok pid (if isServer then map.notifyEvent (.new path.localAddr path.peerAddr) else map)

def insertPath (path : Path) (isServer : Bool) : Action Nat := do
  makeRoomForNewPath
  recordPath path isServer

def onResponseReceived (data : BitVec 64) : Action Unit := fun map =>
  match map.getActivePathId with
  | none => .error .invalidState map
  | some activePid =>
    match map.paths.iter.find? fun (_, path) => path.hasPendingChallenge data with
    | none => .ok () map
    | some (pid, path) =>
      let (answered, validated) := path.onResponseReceived data
      if validated then
        let map := map.update pid fun _ => { answered with migrating := false }
        let map := map.notifyEvent (.validated path.localAddr path.peerAddr)
        .ok () (if pid = activePid ∧ answered.migrating then
          map.notifyEvent (.peerMigrated path.localAddr path.peerAddr) else map)
      else .ok () (map.update pid fun _ => answered)

def clearActive (map : PathMap) : PathMap :=
  match map.getActivePathId with
  | some pid => map.update pid fun path => { path with active := false }
  | none => map

/-- What `set_active_path` does to the new active path of a server that has to validate
it first. -/
def startMigrating (path : Path) : Path :=
  let path := { path with migrating := true }
  if path.underValidation then path else path.requestValidation

def setActivePath (pathId : Nat) : Action Unit := fun map =>
  let map := map.clearActive
  match map.get pathId with
  | none => .error .invalidState map
  | some path =>
    let map := map.update pathId fun path => { path with active := true }
    if map.isServer then
      if path.state = .validated then
        .ok () (map.notifyEvent (.peerMigrated path.localAddr path.peerAddr))
      else .ok () (map.update pathId startMigrating)
    else .ok () map

end PathMap

end Quiche
