import Quiche.Data.Machine
import Quiche.Path

namespace Quiche.PathMap

open Data

variable {map next : PathMap} {pathId : Nat} {path : Path}

section Update

theorem get_update (map : PathMap) (pathId : Nat) (change : Path → Path) (other : Nat) :
    (map.update pathId change).get other = if other = pathId then (map.get other).map change else map.get other :=
  Slab.get_update _ _ _ _

theorem get_update_cases {change : Path → Path} {other : Nat}
    (found : (map.update pathId change).get other = some path) :
    ∃ old, map.get other = some old ∧ path = if other = pathId then change old else old := by
  rw [get_update] at found
  split at found
  · rename_i same
    obtain ⟨old, present, rfl⟩ := Option.map_eq_some_iff.mp found
    exact ⟨old, present, (if_pos same).symm⟩
  · rename_i different
    exact ⟨path, found, (if_neg different).symm⟩

theorem get_update_of_get {other : Nat} (found : map.get other = some path) (pathId : Nat) (change : Path → Path) :
    (map.update pathId change).get other = some (if other = pathId then change path else path) := by
  rw [get_update, found]
  split <;> rfl

theorem getActiveWithPid_spec (found : map.getActiveWithPid = some (pathId, path)) :
    map.get pathId = some path ∧ path.isActive = true := by
  have active := List.find?_some found
  exact ⟨Slab.mem_iter.mp (List.mem_of_find?_eq_some found), active⟩

theorem getActivePathId_spec (found : map.getActivePathId = some pathId) :
    ∃ path, map.get pathId = some path ∧ path.isActive = true := by
  obtain ⟨⟨pid, path⟩, active, rfl⟩ := Option.map_eq_some_iff.mp found
  exact ⟨path, getActiveWithPid_spec active⟩

theorem getActivePathId_eq_none :
    map.getActivePathId = none ↔ ∀ pathId path, map.get pathId = some path → path.isActive = false := by
  rw [getActivePathId, Option.map_eq_none_iff, getActiveWithPid, List.find?_eq_none]
  constructor
  · intro inactive pathId path found
    simpa using inactive (pathId, path) (Slab.mem_iter.mpr found)
  · intro inactive entry member
    simpa using inactive entry.1 entry.2 (Slab.mem_iter.mp member)

end Update

section Alike

variable {alike : Path → Path → Prop} {change : Path → Path}

/-- The same paths are there, and each is like what it was. -/
def Alike (alike : Path → Path → Prop) (next map : PathMap) : Prop :=
  ∀ pathId, Option.Rel alike (next.get pathId) (map.get pathId)

theorem Alike.backward (same : Alike alike next map) (found : next.get pathId = some path) :
    ∃ old, map.get pathId = some old ∧ alike path old := by
  have related := same pathId
  rw [found] at related
  cases present : map.get pathId with
  | none =>
    rw [present] at related
    cases related
  | some old =>
    rw [present] at related
    cases related with
    | some both => exact ⟨old, rfl, both⟩

theorem Alike.forward (same : Alike alike next map) {old : Path} (present : map.get pathId = some old) :
    ∃ path, next.get pathId = some path ∧ alike path old := by
  have related := same pathId
  rw [present] at related
  cases found : next.get pathId with
  | none =>
    rw [found] at related
    cases related
  | some path =>
    rw [found] at related
    cases related with
    | some both => exact ⟨path, rfl, both⟩

theorem Alike.refl (reflexive : ∀ path, alike path path) (map : PathMap) : Alike alike map map := by
  intro pathId
  cases map.get pathId with
  | none => exact .none
  | some path => exact .some (reflexive path)

theorem Alike.trans (transitive : ∀ first second third, alike third second → alike second first → alike third first)
    {first second third : PathMap} (left : Alike alike third second) (right : Alike alike second first) :
    Alike alike third first := by
  intro pathId
  cases found : third.get pathId with
  | none =>
    cases present : first.get pathId with
    | none => exact .none
    | some old =>
      obtain ⟨middle, among, _⟩ := right.forward present
      obtain ⟨path, same, _⟩ := left.forward among
      cases found.symm.trans same
  | some path =>
    obtain ⟨middle, among, later⟩ := left.backward found
    obtain ⟨old, present, sooner⟩ := right.backward among
    rw [present]
    exact .some (transitive old middle path later sooner)

theorem Alike.updates (reflexive : ∀ path, alike path path) {first second : Path → Path}
    (kept : ∀ path, map.get pathId = some path → alike (first path) (second path)) :
    Alike alike (map.update pathId first) (map.update pathId second) := by
  intro other
  rw [get_update, get_update]
  cases found : map.get other with
  | none =>
    split <;> exact .none
  | some path =>
    split
    · rename_i same
      exact .some (kept path (same ▸ found))
    · exact .some (reflexive path)

theorem get_update_id (map : PathMap) (pathId other : Nat) : (map.update pathId id).get other = map.get other := by
  rw [get_update, Option.map_id, id, ite_self]

section

variable (reflexive : ∀ path, alike path path)

include reflexive

theorem Alike.update
    (kept : ∀ path, map.get pathId = some path → alike (change path) path) :
    Alike alike (map.update pathId change) map := by
  intro other
  rw [← get_update_id map pathId other]
  exact Alike.updates reflexive kept other

theorem Alike.of_update
    (kept : ∀ path, map.get pathId = some path → alike path (change path)) :
    Alike alike map (map.update pathId change) := by
  intro other
  rw [← get_update_id map pathId other]
  exact Alike.updates reflexive kept other

theorem Alike.onResponseReceived (data : BitVec 64)
    (answered : ∀ path migrating, alike { (path.onResponseReceived data).1 with migrating } path) (map : PathMap) :
    Alike alike (after (onResponseReceived data map)) map := by
  rw [PathMap.onResponseReceived]
  split
  · exact .refl reflexive map
  split
  · exact .refl reflexive map
  rename_i pid path found
  have present : map.get pid = some path := Slab.mem_iter.mp (List.mem_of_find?_eq_some found)
  have updated : ∀ migrating, Alike alike
      (map.update pid fun _ => { (path.onResponseReceived data).1 with migrating }) map := by
    intro migrating
    apply Alike.update reflexive
    intro old same
    cases present.symm.trans same
    exact answered path migrating
  dsimp only
  split
  · split <;> exact updated false
  · exact updated (path.onResponseReceived data).1.migrating

theorem Alike.setActivePath
    (transitive : ∀ first second third, alike third second → alike second first → alike third first)
    (marked : ∀ (path : Path) active, alike { path with active } path)
    (migrates : ∀ path, alike (startMigrating path) path) (pathId : Nat) (map : PathMap) :
    Alike alike (after (setActivePath pathId map)) map := by
  have cleared : Alike alike map.clearActive map := by
    rw [clearActive]
    split
    · exact .update reflexive fun path _ => marked path false
    · exact .refl reflexive map
  have set : Alike alike (map.clearActive.update pathId fun path => { path with active := true }) map :=
    .trans transitive (.update reflexive fun path _ => marked path true) cleared
  rw [PathMap.setActivePath]
  dsimp only
  split
  · exact cleared
  · split
    · split
      · exact set
      · exact .trans transitive (.update reflexive fun path _ => migrates path) set
    · exact set

end

end Alike

section Marks

/-- The path carries the flag of the active one. -/
def Marks (map : PathMap) (pathId : Nat) : Prop := ∃ path, map.get pathId = some path ∧ path.active = true

/-- At most one path carries the flag. -/
def SingleMark (map : PathMap) : Prop := ∀ first second, map.Marks first → map.Marks second → first = second

theorem SingleMark.mono (single : map.SingleMark) (fewer : ∀ pathId, next.Marks pathId → map.Marks pathId) :
    next.SingleMark := fun first second left right => single first second (fewer first left) (fewer second right)

theorem marks_of_marks_update {change : Path → Path} {other : Nat}
    (keeps : ∀ path, map.get pathId = some path → (change path).active = true → path.active = true)
    (marked : (map.update pathId change).Marks other) : map.Marks other := by
  obtain ⟨path, found, active⟩ := marked
  rw [get_update] at found
  split at found
  · rename_i same
    subst same
    obtain ⟨old, present, rfl⟩ := Option.map_eq_some_iff.mp found
    exact ⟨old, present, keeps old present active⟩
  · exact ⟨path, found, active⟩

theorem SingleMark.update (single : map.SingleMark) {change : Path → Path}
    (keeps : ∀ path, map.get pathId = some path → (change path).active = true → path.active = true) :
    (map.update pathId change).SingleMark := single.mono fun _ marked => marks_of_marks_update keeps marked

theorem isActive_marked (active : path.isActive = true) : path.active = true := by
  rw [Path.isActive, Bool.and_eq_true, Bool.and_eq_true] at active
  exact active.1.1

theorem getActivePathId_marks (found : map.getActivePathId = some pathId) : map.Marks pathId := by
  obtain ⟨path, present, active⟩ := getActivePathId_spec found
  exact ⟨path, present, isActive_marked active⟩

end Marks

section Operations

theorem promoteTo_active (path : Path) (state : PathState) : (path.promoteTo state).active = path.active := by
  rw [Path.promoteTo]
  split <;> rfl

theorem onResponseReceived_active (path : Path) (data : BitVec 64) :
    (path.onResponseReceived data).1.active = path.active := by
  rw [Path.onResponseReceived]
  dsimp only
  split
  · split
    · simp only [promoteTo_active]
    · simp only [Path.requestValidation, promoteTo_active]
  · simp only [promoteTo_active]

theorem countProbeLost_active (path : Path) (lostProbeTime rtt : Nat) :
    (path.countProbeLost lostProbeTime rtt).active = path.active := by
  rw [Path.countProbeLost]
  split
  · split <;> rfl
  · rfl

theorem onLossDetectionTimeout_active {now rtt : Nat} {isServer : Bool}
    (active : (path.onLossDetectionTimeout now rtt isServer).active = true) : path.active = true := by
  rw [Path.onLossDetectionTimeout] at active
  dsimp only at active
  split at active
  · exact active
  · split at active
    · contradiction
    · rw [Path.requestValidation, countProbeLost_active] at active
      exact active

theorem startMigrating_active (path : Path) : (startMigrating path).active = path.active := by
  rw [startMigrating]
  split <;> rfl

theorem SingleMark.makeRoomForNewPath (single : map.SingleMark) : (after (makeRoomForNewPath map)).SingleMark := by
  rw [PathMap.makeRoomForNewPath]
  split
  · exact single
  · split
    · exact single
    · rename_i pid path _
      apply single.mono
      intro pathId marked
      obtain ⟨path, found, active⟩ := marked
      change (map.paths.remove pid).get pathId = some path at found
      rw [Slab.get_remove] at found
      split at found
      · contradiction
      · exact ⟨path, found, active⟩

/-- What `insert_path` does to a map: the path takes a free identifier, and a path that is
not used may have to give up its own. -/
structure Inserted (map : PathMap) (path : Path) (pid : Nat) (next : PathMap) : Prop where
  addrs : next.pathIdFromAddrs (path.localAddr, path.peerAddr) = some pid
  here : next.get pid = some path
  others : ∀ other found, next.get other = some found → other ≠ pid → map.get other = some found
  kept : ∀ other found, map.get other = some found → found.unused = false → other ≠ pid ∧ next.get other = some found

theorem recordPath_inserted (map : PathMap) (path : Path) (isServer : Bool) :
    ∃ pid next, recordPath path isServer map = .ok pid next ∧ Inserted map path pid next := by
  refine ⟨_, _, rfl, ?_⟩
  have get_eq : ∀ other, (after (recordPath path isServer map)).get other =
      if other = map.paths.nextKey then some path else map.get other := by
    intro other
    rw [recordPath]
    cases isServer <;> exact Slab.get_insert map.paths path other
  have vacant : map.get map.paths.nextKey = none := Slab.get_nextKey map.paths
  constructor
  · cases isServer <;> exact AList.lookup_insert _
  · exact (get_eq _).trans (if_pos rfl)
  · intro other found present different
    exact ((get_eq other).trans (if_neg different)).symm.trans present
  · intro other found present _
    have different : other ≠ map.paths.nextKey := by
      intro same
      rw [same, vacant] at present
      cases present
    exact ⟨different, ((get_eq other).trans (if_neg different)).trans present⟩

theorem makeRoomForNewPath_spec (map : PathMap) :
    (∃ reason, makeRoomForNewPath map = .error reason map) ∨ ∃ next, makeRoomForNewPath map = .ok () next ∧
        (∀ other found, next.get other = some found → map.get other = some found) ∧
        ∀ other found, map.get other = some found → found.unused = false → next.get other = some found := by
  rw [makeRoomForNewPath]
  split
  · exact .inr ⟨map, rfl, fun _ _ present => present, fun _ _ present _ => present⟩
  split
  · exact .inl ⟨_, rfl⟩
  rename_i pid path found
  have unused := List.find?_some found
  change path.unused = true at unused
  have present : map.get pid = some path := Slab.mem_iter.mp (List.mem_of_find?_eq_some found)
  refine .inr ⟨_, rfl, ?_, ?_⟩
  · intro other remaining stays
    change (map.paths.remove pid).get other = some remaining at stays
    rw [Slab.get_remove] at stays
    split at stays
    · cases stays
    · exact stays
  · intro other remaining earlier used
    change (map.paths.remove pid).get other = some remaining
    rw [Slab.get_remove, if_neg]
    · exact earlier
    · intro same
      subst same
      cases present.symm.trans earlier
      rw [used] at unused
      cases unused

theorem insertPath_spec (map : PathMap) (path : Path) (isServer : Bool) :
    (∃ reason, insertPath path isServer map = .error reason map) ∨
      ∃ pid next, insertPath path isServer map = .ok pid next ∧ Inserted map path pid next := by
  rcases makeRoomForNewPath_spec map with ⟨reason, failed⟩ | ⟨middle, made, others, kept⟩
  · left
    exact ⟨reason, bind_error failed _⟩
  · right
    obtain ⟨pid, next, recorded, inserted⟩ := recordPath_inserted middle path isServer
    refine ⟨pid, next, (bind_ok made _).trans recorded, inserted.addrs, inserted.here, ?_, ?_⟩
    · exact fun other found present different => others other found (inserted.others other found present different)
    · exact fun other found present used => inserted.kept other found (kept other found present used) used

theorem SingleMark.insertPath (single : map.SingleMark) (unmarked : path.active = false) (isServer : Bool) :
    (after (insertPath path isServer map)).SingleMark := by
  apply after_bind single.makeRoomForNewPath
  intro _ map single
  apply single.mono
  intro pathId marked
  obtain ⟨found, present, active⟩ := marked
  have inserted : (map.paths.insert path).get pathId = some found := by
    rw [recordPath] at present
    cases isServer <;> exact present
  rw [Slab.get_insert] at inserted
  split at inserted
  · cases inserted
    rw [unmarked] at active
    contradiction
  · exact ⟨found, inserted, active⟩

theorem SingleMark.onResponseReceived (single : map.SingleMark) (data : BitVec 64) :
    (after (onResponseReceived data map)).SingleMark := by
  have same : Alike (fun path old => path.active = old.active) (after (PathMap.onResponseReceived data map)) map := by
    apply Alike.onResponseReceived
    · exact fun _ => rfl
    · exact fun path _ => onResponseReceived_active path data
  apply single.mono
  intro pathId marked
  obtain ⟨path, found, active⟩ := marked
  obtain ⟨old, present, equal⟩ := same.backward found
  exact ⟨old, present, equal ▸ active⟩

end Operations

section SetActivePath

/-- The path is there, or none is active, and every other path with the flag is active. -/
def Supersedes (map : PathMap) (pathId : Nat) : Prop := ((map.get pathId).isSome = true ∨ map.getActivePathId = none) ∧
    ∀ other path, map.get other = some path → path.active = true → other ≠ pathId → path.isActive = true

theorem clearActive_get_isSome (map : PathMap) (pathId : Nat) :
    (map.clearActive.get pathId).isSome = (map.get pathId).isSome := by
  rw [clearActive]
  split
  · rw [get_update]
    split
    · rw [Option.isSome_map]
    · rfl
  · rfl

section

variable (supersedes : map.Supersedes pathId)

include supersedes

theorem Supersedes.clearActive (single : map.SingleMark) {other : Nat}
    (marked : map.clearActive.Marks other) : other = pathId := by
  by_contra different
  rw [PathMap.clearActive] at marked
  split at marked
  · rename_i pid found
    have earlier : map.Marks other := marks_of_marks_update (by simp) marked
    have same := single other pid earlier (getActivePathId_marks found)
    subst same
    obtain ⟨path, present, active⟩ := marked
    rw [get_update, if_pos rfl] at present
    obtain ⟨old, _, rfl⟩ := Option.map_eq_some_iff.mp present
    contradiction
  · rename_i none
    obtain ⟨path, present, active⟩ := marked
    have inactive := getActivePathId_eq_none.mp none other path present
    rw [supersedes.2 other path present active different] at inactive
    contradiction

theorem Supersedes.setActivePath (single : map.SingleMark) : (after (setActivePath pathId map)).SingleMark := by
  have cleared : map.clearActive.SingleMark := fun first second left right =>
    (supersedes.clearActive single left).trans (supersedes.clearActive single right).symm
  have marked : (map.clearActive.update pathId fun path => { path with active := true }).SingleMark := by
    have only : ∀ other, (map.clearActive.update pathId fun path => { path with active := true }).Marks other →
        other = pathId := by
      intro other marked
      by_contra different
      obtain ⟨path, present, active⟩ := marked
      rw [get_update, if_neg different] at present
      exact different (supersedes.clearActive single ⟨path, present, active⟩)
    exact fun first second left right => (only first left).trans (only second right).symm
  rw [PathMap.setActivePath]
  dsimp only
  split
  · exact cleared
  · split
    · split
      · exact marked
      · exact marked.update fun path _ active => startMigrating_active path ▸ active
    · exact marked

theorem Supersedes.getActivePathId_of_error {reason : Error}
    (failed : PathMap.setActivePath pathId map = .error reason next) : next.getActivePathId = map.getActivePathId := by
  rw [PathMap.setActivePath] at failed
  dsimp only at failed
  split at failed
  · rename_i absent
    cases failed
    have missing : (map.get pathId).isSome = false := by
      rw [← clearActive_get_isSome, absent]
      rfl
    have inactive := supersedes.1.resolve_left (by simp [missing])
    rw [PathMap.clearActive, inactive]
    exact inactive
  · split at failed
    · split at failed <;> cases failed
    · cases failed

end

end SetActivePath

section Runs

inductive PathCall where
  | insertPath (localAddr peerAddr : SocketAddr) (isInitial isServer : Bool)
  | setActivePath (pathId : Nat)
  | onResponseReceived (data : BitVec 64)
  | onLossDetectionTimeout (pathId now rtt : Nat)
  | addChallengeSent (pathId : Nat) (data : BitVec 64) (pktSize sentTime : Nat)
  | setActiveDcidSeq (pathId : Nat) (seq : Option Nat)

def pathMachine : Machine PathMap PathCall where
  step map
    | .insertPath localAddr peerAddr isInitial isServer =>
      some (after (insertPath (Path.new localAddr peerAddr isInitial) isServer map))
    | .setActivePath pathId => some (after (setActivePath pathId map))
    | .onResponseReceived data => some (after (onResponseReceived data map))
    | .onLossDetectionTimeout pathId now rtt =>
      some (map.update pathId (·.onLossDetectionTimeout now rtt map.isServer))
    | .addChallengeSent pathId data pktSize sentTime =>
      some (map.update pathId (·.addChallengeSent data pktSize sentTime))
    | .setActiveDcidSeq pathId seq => some (map.update pathId fun path => { path with activeDcidSeq := seq })

def start (localAddr peerAddr : SocketAddr) (isInitial : Bool) (maxConcurrentPaths : Nat) (isServer : Bool) : PathMap :=
  new (Path.new localAddr peerAddr isInitial) maxConcurrentPaths isServer

/-- Whenever the active path is set, it supersedes the one before. -/
def SupersedesActive (map : PathMap) : PathCall → Prop
  | .setActivePath pathId => map.Supersedes pathId
  | _ => True

/-- At most one path is active. -/
def OneActive (map : PathMap) : Prop :=
  ∀ first second left right, map.get first = some left → map.get second = some right →
    left.isActive = true → right.isActive = true → first = second

theorem SingleMark.oneActive (single : map.SingleMark) : map.OneActive :=
  fun first second left right found other leftActive rightActive =>
    single first second ⟨left, found, isActive_marked leftActive⟩ ⟨right, other, isActive_marked rightActive⟩

theorem start_singleMark (localAddr peerAddr : SocketAddr) (isInitial : Bool) (maxConcurrentPaths : Nat)
    (isServer : Bool) : (start localAddr peerAddr isInitial maxConcurrentPaths isServer).SingleMark := by
  have only : ∀ pathId, (start localAddr peerAddr isInitial maxConcurrentPaths isServer).Marks pathId → pathId = 0 := by
    intro pathId marked
    obtain ⟨path, found, _⟩ := marked
    change (Slab.empty.insert _).get pathId = some path at found
    rw [Slab.get_insert] at found
    split at found
    · assumption
    · simp [Slab.empty, Slab.get] at found
  exact fun first second left right => (only first left).trans (only second right).symm

theorem SingleMark.step (single : map.SingleMark) (call : PathCall) (supersedes : map.SupersedesActive call) :
    ∃ next, pathMachine.step map call = some next ∧ next.SingleMark := by
  cases call with
  | insertPath localAddr peerAddr isInitial isServer => exact ⟨_, rfl, single.insertPath rfl isServer⟩
  | setActivePath pathId => exact ⟨_, rfl, Supersedes.setActivePath supersedes single⟩
  | onResponseReceived data => exact ⟨_, rfl, single.onResponseReceived data⟩
  | onLossDetectionTimeout pathId now rtt =>
    exact ⟨_, rfl, single.update fun _ _ active => onLossDetectionTimeout_active active⟩
  | addChallengeSent pathId data pktSize sentTime =>
    refine ⟨_, rfl, single.update fun path _ active => ?_⟩
    rw [← promoteTo_active path .validating]
    exact active
  | setActiveDcidSeq pathId seq => exact ⟨_, rfl, single.update fun _ _ active => active⟩

/-- In a run in which every new active path supersedes the one before, at most one path is
active, and a call that fails leaves it active. -/
theorem at_most_one_active (localAddr peerAddr : SocketAddr) (isInitial : Bool)
    (maxConcurrentPaths : Nat) (isServer : Bool) (calls : List PathCall)
    (supersedes : pathMachine.Guarded SupersedesActive
      (start localAddr peerAddr isInitial maxConcurrentPaths isServer) calls) :
    ∃ map, pathMachine.run (start localAddr peerAddr isInitial maxConcurrentPaths isServer) calls = some map ∧
      map.OneActive ∧ ∀ pathId reason next, map.Supersedes pathId → setActivePath pathId map = .error reason next →
        next.getActivePathId = map.getActivePathId := by
  obtain ⟨map, completed, single⟩ := pathMachine.run_total_of_guarded
    (fun map call single supersedes => SingleMark.step single call supersedes)
    (start_singleMark localAddr peerAddr isInitial maxConcurrentPaths isServer) supersedes
  exact ⟨map, completed, single.oneActive,
    fun pathId reason next allowed failed => allowed.getActivePathId_of_error failed⟩

/-- A server moves to a second path. -/
theorem at_most_one_active_moving : ∃ map, pathMachine.run (start ⟨[1], 1⟩ ⟨[2], 2⟩ true 2 true)
        [.insertPath ⟨[1], 1⟩ ⟨[3], 3⟩ false true, .setActiveDcidSeq 1 (some 1), .setActivePath 1] = some map ∧
      map.OneActive ∧ ∀ pathId reason next, map.Supersedes pathId → setActivePath pathId map = .error reason next →
        next.getActivePathId = map.getActivePathId := by
  refine at_most_one_active ⟨[1], 1⟩ ⟨[2], 2⟩ true 2 true
    [.insertPath ⟨[1], 1⟩ ⟨[3], 3⟩ false true, .setActiveDcidSeq 1 (some 1), .setActivePath 1] ?_
  refine ⟨trivial, fun _ stepped => ?_⟩
  cases stepped
  refine ⟨trivial, fun _ stepped => ?_⟩
  cases stepped
  refine ⟨⟨.inl rfl, ?_⟩, fun _ _ => trivial⟩
  intro other path found _ different
  match other with
  | 0 =>
    cases found
    rfl
  | 1 => contradiction
  | other + 2 => contradiction

/-- The active path loses its destination identifier, another one becomes active, and the
first gets an identifier again. -/
theorem two_active : ∃ map, pathMachine.run (start ⟨[1], 1⟩ ⟨[2], 2⟩ true 2 true)
        [.insertPath ⟨[1], 1⟩ ⟨[3], 3⟩ false true, .setActiveDcidSeq 0 none, .setActiveDcidSeq 1 (some 1),
          .setActivePath 1, .setActiveDcidSeq 0 (some 2)] = some map ∧
      ¬ (map.OneActive ∧ ∀ pathId reason next, setActivePath pathId map = .error reason next →
          next.getActivePathId = map.getActivePathId) := by
  refine ⟨_, rfl, ?_⟩
  intro both
  have same : (0 : Nat) = 1 := both.1 0 1 _ _ rfl rfl rfl rfl
  contradiction

end Runs

end Quiche.PathMap
