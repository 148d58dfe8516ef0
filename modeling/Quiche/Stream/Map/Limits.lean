import Mathlib.Data.Finset.Card
import Quiche.Data.Total
import Quiche.Stream.Map

namespace Quiche.StreamMap

open Data

/-! The limits on the number of streams. The two types of streams have counters of their
own, which obey the same rules. -/

structure Counters where
  peerMax : Nat
  localOpened : Nat
  peerOpened : Nat
  localMax : Nat
  localMaxNext : Nat

variable {map next : StreamMap} {isServer : Bool} {id : Nat}

def counters (map : StreamMap) : Bool → Counters
  | true => ⟨map.peerMaxStreamsBidi, map.localOpenedStreamsBidi, map.peerOpenedStreamsBidi,
      map.localMaxStreamsBidi, map.localMaxStreamsBidiNext⟩
  | false => ⟨map.peerMaxStreamsUni, map.localOpenedStreamsUni, map.peerOpenedStreamsUni,
      map.localMaxStreamsUni, map.localMaxStreamsUniNext⟩

def peerStreamsLeft (map : StreamMap) : Bool → Option Nat
  | true => map.peerStreamsLeftBidi
  | false => map.peerStreamsLeftUni

def shouldUpdateMaxStreams (map : StreamMap) : Bool → Option Bool
  | true => map.shouldUpdateMaxStreamsBidi
  | false => map.shouldUpdateMaxStreamsUni

def released (map : StreamMap) (isServer bidi : Bool) : Finset Nat :=
  map.collected.filter fun id => isLocal id isServer = false ∧ isBidi id = bidi

/-- The calls that concern the limits. A stream is collected on behalf of who opened it. -/
inductive Op where
  | getOrCreate (id : Nat) (localParams peerParams : TransportParams) (locally : Bool)
  | collect (id : Nat)
  | updatePeerMaxStreams (bidi : Bool) (limit : Nat)
  | updateMaxStreams (bidi : Bool)

def step (isServer : Bool) (map : StreamMap) : Op → Option StreamMap
  | .getOrCreate id localParams peerParams locally =>
    match map.getOrCreate id localParams peerParams locally isServer with
    | .ok (next, _) => some next
    | .error _ => some map
  | .collect id => do
    let stream ← map.get id
    map.collect id stream.isLocal
  | .updatePeerMaxStreams true limit => some (map.updatePeerMaxStreamsBidi limit)
  | .updatePeerMaxStreams false limit => some (map.updatePeerMaxStreamsUni limit)
  | .updateMaxStreams true => some map.updateMaxStreamsBidi
  | .updateMaxStreams false => some map.updateMaxStreamsUni

def machine (isServer : Bool) : Machine StreamMap Op := ⟨step isServer⟩

/-- The counters are within their limits, and the limit for the peer grows with the streams that were released. -/
structure Limited (isServer : Bool) (initial : Bool → Nat) (map : StreamMap) : Prop where
  opened : ∀ bidi, (map.counters bidi).peerOpened ≤ (map.counters bidi).localMax
  committed : ∀ bidi, (map.counters bidi).localMax ≤ (map.counters bidi).localMaxNext
  allowed : ∀ bidi, (map.counters bidi).localOpened ≤ (map.counters bidi).peerMax
  credited : ∀ bidi, (map.counters bidi).localMaxNext =
    min (initial bidi + (map.released isServer bidi).card) (2 ^ 64 - 1)
  counted : ∀ id, isLocal id isServer = false → (map.get id).isSome ∨ id ∈ map.collected →
    id >>> 2 < (map.counters (isBidi id)).peerOpened
  origin : ∀ id stream, map.get id = some stream → stream.isLocal = isLocal id isServer
  gone : ∀ id ∈ map.collected, map.get id = none

theorem enforceLimits_spec (enforced : map.enforceLimits id isServer = .ok next) :
    next.streams = map.streams ∧ next.collected = map.collected ∧ ∀ bidi, ∃ localOpened peerOpened,
        next.counters bidi = { map.counters bidi with localOpened, peerOpened } ∧
        (localOpened = (map.counters bidi).localOpened ∨ localOpened ≤ (map.counters bidi).peerMax) ∧
        (map.counters bidi).peerOpened ≤ peerOpened ∧
        (peerOpened = (map.counters bidi).peerOpened ∨ peerOpened ≤ (map.counters bidi).localMax) ∧
        (isLocal id isServer = false → isBidi id = bidi → id >>> 2 < peerOpened) := by
  rw [enforceLimits] at enforced
  split at enforced <;> rename_i locally bidirectional <;> dsimp only at enforced <;> split at enforced <;>
    cases enforced <;> rename_i within <;> refine ⟨rfl, rfl, fun bidi => ?_⟩ <;>
    rw [locally, bidirectional] <;> cases bidi <;> refine ⟨_, _, rfl, ?_⟩ <;> simp [counters] at * <;> omega

variable {initial : Bool → Nat}

theorem new_limited (bidi uni window : Nat) (bidiSmall : bidi < 2 ^ 64) (uniSmall : uni < 2 ^ 64) :
    Limited isServer (fun kind => if kind then bidi else uni) (new bidi uni window) where
  opened := by rintro (_ | _) <;> exact Nat.zero_le _
  committed := by rintro (_ | _) <;> exact Nat.le_refl _
  allowed := by rintro (_ | _) <;> exact Nat.le_refl _
  credited := by
    rintro (_ | _)
    · show uni = min (uni + 0) (2 ^ 64 - 1)
      omega
    · show bidi = min (bidi + 0) (2 ^ 64 - 1)
      omega
  counted := by
    rintro id _ (live | gone)
    · cases live
    · exact absurd gone (Finset.notMem_empty id)
  origin := by
    intro id stream found
    cases found
  gone := fun id gone => absurd gone (Finset.notMem_empty id)

theorem Limited.raise (limited : Limited isServer initial map) (streams : next.streams = map.streams)
    (collected : next.collected = map.collected)
    (raised : ∀ bidi, ∃ peerMax localMax, next.counters bidi = { map.counters bidi with peerMax, localMax } ∧
      (map.counters bidi).peerMax ≤ peerMax ∧
      (localMax = (map.counters bidi).localMax ∨ localMax = (map.counters bidi).localMaxNext)) :
    Limited isServer initial next := by
  refine ⟨?_, ?_, ?_, ?_, ?_, ?_, ?_⟩
  · intro bidi
    obtain ⟨peerMax, localMax, same, _, _⟩ := raised bidi
    have opened := limited.opened bidi
    have committed := limited.committed bidi
    rw [same]
    dsimp only
    omega
  · intro bidi
    obtain ⟨peerMax, localMax, same, _, _⟩ := raised bidi
    have committed := limited.committed bidi
    rw [same]
    dsimp only
    omega
  · intro bidi
    obtain ⟨peerMax, localMax, same, grown, _⟩ := raised bidi
    rw [same]
    exact Nat.le_trans (limited.allowed bidi) grown
  · intro bidi
    obtain ⟨peerMax, localMax, same, _, _⟩ := raised bidi
    rw [same, released, collected]
    exact limited.credited bidi
  · intro id remote present
    obtain ⟨peerMax, localMax, same, _, _⟩ := raised (isBidi id)
    rw [get, streams, collected] at present
    rw [same]
    exact limited.counted id remote present
  · intro id stream found
    rw [get, streams] at found
    exact limited.origin id stream found
  · intro id gone
    rw [collected] at gone
    rw [get, streams]
    exact limited.gone id gone

variable {localParams peerParams : TransportParams} {locally : Bool} {stream : Stream}

theorem getOrCreate_spec (handed : map.getOrCreate id localParams peerParams locally isServer = .ok (next, stream)) :
    next = map ∨ map.get id = none ∧ id ∉ map.collected ∧ stream.isLocal = isLocal id isServer ∧
      Put map.streams id stream next.streams ∧ next.collected = map.collected ∧
      ∃ counted, map.enforceLimits id isServer = .ok counted ∧ next.counters = counted.counters := by
  rcases getOrCreate_cases handed with
    ⟨rfl, _⟩ | ⟨absent, uncollected, locality, counted, writable, enforced, rfl, rfl⟩
  · exact .inl rfl
  · obtain ⟨streams, collected, _⟩ := enforceLimits_spec enforced
    refine .inr ⟨absent, uncollected, locality, ?_, collected, counted, enforced, rfl⟩
    rw [← streams]
    exact put_insert counted.streams id _

theorem Limited.getOrCreate (limited : Limited isServer initial map)
    (handed : map.getOrCreate id localParams peerParams locally isServer = .ok (next, stream)) :
    Limited isServer initial next := by
  rcases getOrCreate_spec handed with
    rfl | ⟨absent, uncollected, locality, put, collected, counted, enforced, changed⟩
  · exact limited
  obtain ⟨_, _, counters⟩ := enforceLimits_spec enforced
  rw [← changed] at counters
  refine ⟨?_, ?_, ?_, ?_, ?_, ?_, ?_⟩
  · intro bidi
    obtain ⟨localOpened, peerOpened, same, _, _, within, _⟩ := counters bidi
    have before := limited.opened bidi
    rw [same]
    dsimp only
    omega
  · intro bidi
    obtain ⟨localOpened, peerOpened, same, _⟩ := counters bidi
    rw [same]
    exact limited.committed bidi
  · intro bidi
    obtain ⟨localOpened, peerOpened, same, within, _⟩ := counters bidi
    have before := limited.allowed bidi
    rw [same]
    dsimp only
    omega
  · intro bidi
    obtain ⟨localOpened, peerOpened, same, _⟩ := counters bidi
    rw [same, released, collected]
    exact limited.credited bidi
  · intro other remote present
    obtain ⟨localOpened, peerOpened, same, _, grown, _, fresh⟩ := counters (isBidi other)
    rw [same]
    by_cases new : other = id
    · subst new
      exact fresh remote rfl
    · rw [get, put, if_neg new, collected] at present
      exact Nat.lt_of_lt_of_le (limited.counted other remote present) grown
  · intro other present found
    rw [get, put] at found
    split at found
    · rename_i same
      cases found
      rw [same]
      exact locality
    · exact limited.origin other present found
  · intro other gone
    rw [collected] at gone
    have different : other ≠ id := fun same => uncollected (same ▸ gone)
    rw [get, put, if_neg different]
    exact limited.gone other gone

theorem collect_credits (collected : map.collect id locally = some next) :
    Dropped map.streams id next.streams ∧ next.collected = insert id map.collected ∧
      ∀ bidi, next.counters bidi = { map.counters bidi with
        localMaxNext :=
          if locally = false ∧ isBidi id = bidi then min ((map.counters bidi).localMaxNext + 1) (2 ^ 64 - 1)
          else (map.counters bidi).localMaxNext } := by
  obtain ⟨stream, _, collected⟩ := Option.bind_eq_some_iff.mp collected
  cases collected
  refine ⟨dropped_erase map.streams id, rfl, ?_⟩
  rintro (_ | _) <;> cases locally <;> cases isBidi id <;> simp [counters]

theorem Limited.collect (limited : Limited isServer initial map)
    (found : map.get id = some stream) (collected : map.collect id stream.isLocal = some next) :
    Limited isServer initial next := by
  have uncollected : id ∉ map.collected := by
    intro gone
    cases (limited.gone id gone).symm.trans found
  have locality := limited.origin id stream found
  obtain ⟨dropped, gone, counters⟩ := collect_credits collected
  rw [locality] at counters
  have credited : ∀ bidi, (next.counters bidi).localMaxNext =
      min (initial bidi + (next.released isServer bidi).card) (2 ^ 64 - 1) := by
    intro bidi
    have before := limited.credited bidi
    have released : next.released isServer bidi =
        if isLocal id isServer = false ∧ isBidi id = bidi then insert id (map.released isServer bidi)
        else map.released isServer bidi := by
      rw [StreamMap.released, gone, Finset.filter_insert]
      rfl
    rw [counters, released]
    dsimp only
    split
    · have absent : id ∉ map.released isServer bidi := fun member =>
        uncollected (Finset.mem_of_mem_filter id member)
      rw [Finset.card_insert_of_notMem absent]
      omega
    · exact before
  refine ⟨?_, ?_, ?_, credited, ?_, ?_, ?_⟩
  · intro bidi
    rw [counters]
    exact limited.opened bidi
  · intro bidi
    have before := limited.committed bidi
    have bound := limited.credited bidi
    rw [counters]
    dsimp only
    split <;> omega
  · intro bidi
    rw [counters]
    exact limited.allowed bidi
  · intro other remote present
    rw [counters]
    apply limited.counted other remote
    by_cases same : other = id
    · rw [same]
      exact .inl (by rw [found]; rfl)
    · rw [get, dropped, if_neg same, gone, Finset.mem_insert, or_iff_right same] at present
      exact present
  · intro other present known
    rw [get, dropped] at known
    split at known
    · cases known
    · exact limited.origin other present known
  · intro other member
    rw [get, dropped]
    split
    · rfl
    · rename_i different
      rw [gone, Finset.mem_insert, or_iff_right different] at member
      exact limited.gone other member

theorem Limited.step {op : Op} (limited : Limited isServer initial map)
    (stepped : map.step isServer op = some next) : Limited isServer initial next := by
  cases op with
  | getOrCreate id localParams peerParams locally =>
    rw [StreamMap.step] at stepped
    split at stepped
    · rename_i handed
      cases stepped
      exact limited.getOrCreate handed
    · cases stepped
      exact limited
  | collect id =>
    obtain ⟨stream, found, collected⟩ := Option.bind_eq_some_iff.mp stepped
    exact limited.collect found collected
  | updatePeerMaxStreams bidi limit =>
    cases bidi with
    | false =>
      cases stepped
      refine limited.raise rfl rfl ?_
      rintro (_ | _)
      · exact ⟨_, _, rfl, Nat.le_max_left _ _, .inl rfl⟩
      · exact ⟨_, _, rfl, Nat.le_refl _, .inl rfl⟩
    | true =>
      cases stepped
      refine limited.raise rfl rfl ?_
      rintro (_ | _)
      · exact ⟨_, _, rfl, Nat.le_refl _, .inl rfl⟩
      · exact ⟨_, _, rfl, Nat.le_max_left _ _, .inl rfl⟩
  | updateMaxStreams bidi =>
    cases bidi with
    | false =>
      cases stepped
      refine limited.raise rfl rfl ?_
      rintro (_ | _)
      · exact ⟨_, _, rfl, Nat.le_refl _, .inr rfl⟩
      · exact ⟨_, _, rfl, Nat.le_refl _, .inl rfl⟩
    | true =>
      cases stepped
      refine limited.raise rfl rfl ?_
      rintro (_ | _)
      · exact ⟨_, _, rfl, Nat.le_refl _, .inl rfl⟩
      · exact ⟨_, _, rfl, Nat.le_refl _, .inr rfl⟩

theorem step_collected {op : Op} (stepped : map.step isServer op = some next) : map.collected ⊆ next.collected := by
  cases op with
  | getOrCreate id localParams peerParams locally =>
    rw [StreamMap.step] at stepped
    split at stepped
    · rename_i handed
      cases stepped
      rcases getOrCreate_spec handed with rfl | ⟨_, _, _, _, collected, _⟩
      · exact Finset.Subset.refl _
      · exact collected.symm ▸ Finset.Subset.refl _
    · cases stepped
      exact Finset.Subset.refl _
  | collect id =>
    obtain ⟨stream, found, collected⟩ := Option.bind_eq_some_iff.mp stepped
    obtain ⟨_, gone, _⟩ := collect_credits collected
    rw [gone]
    exact Finset.subset_insert id map.collected
  | updatePeerMaxStreams bidi limit => cases bidi <;> cases stepped <;> exact Finset.Subset.refl _
  | updateMaxStreams bidi => cases bidi <;> cases stepped <;> exact Finset.Subset.refl _

theorem Limited.peerStreamsLeft (limited : Limited isServer initial map) (kind : Bool) :
    (map.peerStreamsLeft kind).isSome := by
  have allowed := limited.allowed kind
  cases kind with
  | false => exact Option.isSome_of_eq_some (subChecked_of_le allowed)
  | true => exact Option.isSome_of_eq_some (subChecked_of_le allowed)

theorem shouldUpdate_isSome {limit limitNext opened : Nat} (bound : opened ≤ limit) :
    (shouldUpdate limit limitNext opened).isSome := by
  rw [shouldUpdate, subChecked_of_le bound]
  split <;> rfl

theorem Limited.shouldUpdateMaxStreams (limited : Limited isServer initial map) (kind : Bool) :
    (map.shouldUpdateMaxStreams kind).isSome := by
  have opened := limited.opened kind
  cases kind with
  | false => exact shouldUpdate_isSome opened
  | true => exact shouldUpdate_isSome opened

theorem run_collected {ops : List Op} (reached : (machine isServer).run map ops = some next) :
    map.collected ⊆ next.collected := by
  have grows : ∀ state op later, map.collected ⊆ state.collected →
      (machine isServer).step state op = some later → map.collected ⊆ later.collected :=
    fun _ _ _ kept stepped => kept.trans (step_collected stepped)
  exact (machine isServer).run_keeps grows (Finset.Subset.refl _) reached

/-- In every run from a new map, with the counters of both types: the streams stay within the
limits, the next limit is the initial one with a credit for each of the peer's streams that
was collected, up to the largest `u64`, a collected stream does not come back, and no
difference underflows. -/
theorem stream_limits_enforced (bidi uni window : UInt64) {ops : List Op}
    (reached : (machine isServer).run (new bidi.toNat uni.toNat window.toNat) ops = some map) :
    (∀ kind, (map.counters kind).peerOpened ≤ (map.counters kind).localMax ∧
      (map.counters kind).localMax ≤ (map.counters kind).localMaxNext ∧
      (map.counters kind).localOpened ≤ (map.counters kind).peerMax ∧ (map.counters kind).localMaxNext =
        min ((if kind then bidi.toNat else uni.toNat) + (map.released isServer kind).card) (2 ^ 64 - 1) ∧
      (∀ id, isLocal id isServer = false → isBidi id = kind → (map.get id).isSome ∨ id ∈ map.collected →
        id >>> 2 < (map.counters kind).localMax) ∧
      (map.peerStreamsLeft kind).isSome ∧ (map.shouldUpdateMaxStreams kind).isSome) ∧
    ∀ id ∈ map.collected, ∀ later final, (machine isServer).run map later = some final → final.get id = none := by
  have start : Limited isServer (fun kind => if kind then bidi.toNat else uni.toNat)
      (new bidi.toNat uni.toNat window.toNat) := new_limited _ _ _ bidi.toNat_lt uni.toNat_lt
  have kept : ∀ {before after ops}, Limited isServer (fun kind => if kind then bidi.toNat else uni.toNat) before →
      (machine isServer).run before ops = some after → Limited isServer _ after := fun limited completed =>
      (machine isServer).run_keeps (fun _ _ _ limited stepped => limited.step stepped) limited completed
  have limited := kept start reached
  refine ⟨fun kind => ⟨limited.opened kind, limited.committed kind, limited.allowed kind, limited.credited kind,
    ?_, limited.peerStreamsLeft kind, limited.shouldUpdateMaxStreams kind⟩, ?_⟩
  · intro id remote same present
    subst same
    exact Nat.lt_of_lt_of_le (limited.counted id remote present) (limited.opened _)
  · intro id gone later final continued
    exact (kept limited continued).gone id (run_collected continued gone)

/-- The peer opens its third stream, which is collected, and the limit is announced. -/
theorem stream_limits_enforced_third : ∃ map, (machine true).run (new 4 2 100)
        [.getOrCreate 8 .default .default false, .updatePeerMaxStreams true 1,
          .getOrCreate 1 .default .default true, .collect 8, .updateMaxStreams true] = some map ∧
      (map.counters true).peerOpened = 3 ∧
      (map.counters true).peerOpened ≤ (map.counters true).localMax ∧ (map.counters true).localMax = 5 :=
  exists_reached_of (fun map => (map.counters true).peerOpened = 3 ∧ (map.counters true).localMax = 5)
    (by decide +kernel) fun _ reached ⟨peerOpened, localMax⟩ =>
      ⟨peerOpened, ((stream_limits_enforced 4 2 100 reached).1 true).1, localMax⟩

/-- A limit that is the largest `u64` takes no credit. -/
theorem credit_saturates :
    ∃ map, (machine true).run (new (2 ^ 64 - 1) 0 0) [.getOrCreate 0 .default .default false, .collect 0] = some map ∧
      ¬ (map.counters true).localMaxNext = 2 ^ 64 - 1 + (map.released true true).card := by
  decide +kernel

end Quiche.StreamMap
