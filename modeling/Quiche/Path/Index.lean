import Quiche.Path.Active

namespace Quiche

open Data

def Path.addrs (path : Path) : SocketAddr × SocketAddr := (path.localAddr, path.peerAddr)

namespace PathMap

variable {map next : PathMap} {path : Path} {pid : Nat}

/-- A pair of addresses names the path that has it. -/
def Indexed (map : PathMap) : Prop :=
  ∀ addrs pid, map.pathIdFromAddrs addrs = some pid ↔ ∃ path, map.get pid = some path ∧ path.addrs = addrs

theorem Indexed.entry (indexed : map.Indexed) (found : map.get pid = some path) :
    map.pathIdFromAddrs path.addrs = some pid := (indexed _ _).mpr ⟨path, found, rfl⟩

theorem Indexed.absent (indexed : map.Indexed) {addrs : SocketAddr × SocketAddr}
    (absent : map.pathIdFromAddrs addrs = none) (found : map.get pid = some path) : path.addrs ≠ addrs := by
  intro same
  rw [← same, indexed.entry found] at absent
  cases absent

theorem Indexed.alike (indexed : map.Indexed) {alike : Path → Path → Prop} (same : Alike alike next map)
    (addrs : ∀ path old, alike path old → path.addrs = old.addrs) (entries : next.addrsToPaths = map.addrsToPaths) :
    next.Indexed := by
  intro pair pid
  have lookups : next.pathIdFromAddrs pair = map.pathIdFromAddrs pair := by
    rw [pathIdFromAddrs, entries]
    rfl
  rw [lookups, indexed pair pid]
  constructor
  · rintro ⟨old, present, rfl⟩
    obtain ⟨path, found, kept⟩ := same.forward present
    exact ⟨path, found, addrs path old kept⟩
  · rintro ⟨path, found, rfl⟩
    obtain ⟨old, present, kept⟩ := same.backward found
    exact ⟨old, present, (addrs path old kept).symm⟩

section Eviction

theorem makeRoomForNewPath_cases (map : PathMap) :
    makeRoomForNewPath map = .error .done map ∨ makeRoomForNewPath map = .ok () map ∨
      ∃ pid path next, map.get pid = some path ∧ path.unused = true ∧ makeRoomForNewPath map = .ok () next ∧
        next.paths = map.paths.remove pid ∧ next.addrsToPaths = map.addrsToPaths.erase path.addrs := by
  rw [makeRoomForNewPath]
  split
  · exact .inr (.inl rfl)
  split
  · exact .inl rfl
  rename_i pid path found
  have unused := List.find?_some found
  exact .inr (.inr ⟨pid, path, _, Slab.mem_iter.mp (List.mem_of_find?_eq_some found), unused, rfl, rfl, rfl⟩)

theorem Indexed.evict (indexed : map.Indexed) (present : map.get pid = some path)
    (paths : next.paths = map.paths.remove pid) (entries : next.addrsToPaths = map.addrsToPaths.erase path.addrs) :
    next.Indexed := by
  have get_eq : ∀ other, next.get other = if other = pid then none else map.get other := by
    intro other
    rw [PathMap.get, paths]
    exact Slab.get_remove map.paths pid other
  intro addrs other
  rw [pathIdFromAddrs, entries]
  by_cases own : addrs = path.addrs
  · subst own
    rw [AList.lookup_erase]
    constructor
    · intro impossible
      cases impossible
    · rintro ⟨found, stays, same⟩
      rw [get_eq] at stays
      split at stays
      · cases stays
      · rename_i different
        have entry := indexed.entry stays
        rw [same, indexed.entry present] at entry
        exact absurd (Option.some.inj entry).symm different
  · rw [AList.lookup_erase_ne own]
    refine (indexed addrs other).trans ?_
    constructor
    · rintro ⟨found, stays, rfl⟩
      have different : other ≠ pid := by
        rintro rfl
        cases present.symm.trans stays
        exact own rfl
      exact ⟨found, (get_eq other).trans ((if_neg different).trans stays), rfl⟩
    · rintro ⟨found, stays, same⟩
      rw [get_eq] at stays
      split at stays
      · cases stays
      · exact ⟨found, stays, same⟩

theorem Indexed.makeRoomForNewPath (indexed : map.Indexed) (made : makeRoomForNewPath map = .ok () next) :
    next.Indexed := by
  rcases makeRoomForNewPath_cases map with failed | kept | ⟨pid, path, evicted, present, _, room, paths, entries⟩
  · rw [failed] at made
    cases made
  · rw [kept] at made
    cases made
    exact indexed
  · rw [room] at made
    cases made
    exact indexed.evict present paths entries

end Eviction

section Recording

/-- The path is added under the next key and under its addresses. -/
structure Recorded (map : PathMap) (path : Path) (next : PathMap) : Prop where
  entries : next.addrsToPaths = map.addrsToPaths.insert path.addrs map.paths.nextKey
  get : ∀ other, next.get other = if other = map.paths.nextKey then some path else map.get other

theorem recordPath_recorded (map : PathMap) (path : Path) (isServer : Bool) :
    Recorded map path (after (recordPath path isServer map)) := by
  rw [recordPath]
  cases isServer <;> exact ⟨rfl, fun other => Slab.get_insert map.paths path other⟩

theorem Indexed.record_iff (indexed : map.Indexed) (recorded : Recorded map path next) :
    next.Indexed ↔ map.pathIdFromAddrs path.addrs = none := by
  have vacant : map.get map.paths.nextKey = none := Slab.get_nextKey map.paths
  constructor
  · intro kept
    rw [Option.eq_none_iff_forall_ne_some]
    intro pid entry
    obtain ⟨stored, found, same⟩ := (indexed _ _).mp entry
    have different : pid ≠ map.paths.nextKey := by
      rintro rfl
      rw [vacant] at found
      cases found
    have still : next.pathIdFromAddrs path.addrs = some pid := by
      rw [← same]
      exact kept.entry ((recorded.get pid).trans ((if_neg different).trans found))
    rw [pathIdFromAddrs, recorded.entries, AList.lookup_insert] at still
    exact different (Option.some.inj still).symm
  · intro absent addrs other
    rw [pathIdFromAddrs, recorded.entries]
    by_cases own : addrs = path.addrs
    · subst own
      rw [AList.lookup_insert]
      constructor
      · intro same
        cases same
        exact ⟨path, (recorded.get _).trans (if_pos rfl), rfl⟩
      · rintro ⟨found, stays, same⟩
        rw [recorded.get] at stays
        split at stays
        · rename_i here
          rw [here]
        · exact absurd same (indexed.absent absent stays)
    · rw [AList.lookup_insert_ne own]
      refine (indexed addrs other).trans ?_
      constructor
      · rintro ⟨found, stays, same⟩
        have different : other ≠ map.paths.nextKey := by
          rintro rfl
          rw [vacant] at stays
          cases stays
        exact ⟨found, (recorded.get other).trans ((if_neg different).trans stays), same⟩
      · rintro ⟨found, stays, same⟩
        rw [recorded.get] at stays
        split at stays
        · cases stays
          exact absurd same.symm own
        · exact ⟨found, stays, same⟩

end Recording

/-- Once room was made, no path has the addresses. -/
def Admits (map : PathMap) (addrs : SocketAddr × SocketAddr) : Prop :=
  ∀ middle, makeRoomForNewPath map = .ok () middle → middle.pathIdFromAddrs addrs = none

theorem admits_of_absent {addrs : SocketAddr × SocketAddr} (absent : map.pathIdFromAddrs addrs = none) :
    map.Admits addrs := by
  intro middle made
  rcases makeRoomForNewPath_cases map with failed | kept | ⟨pid, path, evicted, _, _, room, _, entries⟩
  · rw [failed] at made
    cases made
  · rw [kept] at made
    cases made
    exact absent
  · rw [room] at made
    cases made
    rw [pathIdFromAddrs, entries]
    by_cases own : addrs = path.addrs
    · rw [own, AList.lookup_erase]
    · rw [AList.lookup_erase_ne own]
      exact absent

theorem insertPath_cases (map : PathMap) (path : Path) (isServer : Bool) :
    (makeRoomForNewPath map = .error .done map ∧ after (insertPath path isServer map) = map) ∨
      ∃ middle, makeRoomForNewPath map = .ok () middle ∧ Recorded middle path (after (insertPath path isServer map)) := by
  rcases makeRoomForNewPath_cases map with failed | kept | ⟨_, _, evicted, _, _, room, _, _⟩
  · left
    refine ⟨failed, ?_⟩
    rw [insertPath, bind_error failed]
    rfl
  · right
    refine ⟨map, kept, ?_⟩
    rw [insertPath, bind_ok kept]
    exact recordPath_recorded map path isServer
  · right
    refine ⟨evicted, room, ?_⟩
    rw [insertPath, bind_ok room]
    exact recordPath_recorded evicted path isServer

theorem Indexed.insertPath_iff (indexed : map.Indexed) (path : Path) (isServer : Bool) :
    (after (insertPath path isServer map)).Indexed ↔ map.Admits path.addrs := by
  rcases insertPath_cases map path isServer with ⟨failed, unchanged⟩ | ⟨middle, room, recorded⟩
  · rw [unchanged]
    refine iff_of_true indexed fun middle made => ?_
    rw [failed] at made
    cases made
  · refine ((indexed.makeRoomForNewPath room).record_iff recorded).trans ?_
    constructor
    · intro absent other made
      rw [room] at made
      cases made
      exact absent
    · exact fun admits => admits middle room

theorem new_indexed (path : Path) (maxConcurrentPaths : Nat) (isServer : Bool) :
    (new path maxConcurrentPaths isServer).Indexed := by
  have get_eq : ∀ other, (new path maxConcurrentPaths isServer).get other =
      if other = 0 then some { path with active := true } else none := by
    intro other
    refine (Slab.get_insert _ _ other).trans ?_
    have first : (Slab.empty : Slab Path).nextKey = 0 := rfl
    rw [first]
    rfl
  intro addrs other
  rw [get_eq]
  show (AList.singleton path.addrs 0 : AList fun _ : SocketAddr × SocketAddr => Nat).lookup addrs = some other ↔ _
  rw [← AList.insert_empty]
  by_cases own : addrs = path.addrs
  · subst own
    rw [AList.lookup_insert]
    constructor
    · intro same
      cases same
      exact ⟨_, if_pos rfl, rfl⟩
    · rintro ⟨found, stored, _⟩
      split at stored
      · rename_i first
        rw [first]
      · cases stored
  · rw [AList.lookup_insert_ne own, AList.lookup_empty]
    constructor
    · intro impossible
      cases impossible
    · rintro ⟨found, stored, same⟩
      split at stored
      · cases stored
        exact absurd same.symm own
      · cases stored

end PathMap

end Quiche
