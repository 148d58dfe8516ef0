import Quiche.Connection.Flush
import Quiche.Data.SearchTree

namespace Quiche

open Data

namespace StreamPriorityKey

variable {key other : StreamPriorityKey}

/-- The comparison that sends an insertion to the left. -/
def isLess (key other : StreamPriorityKey) : Bool := key.cmp other == .lt

theorem isLess_iff (distinct : key.id ≠ other.id) :
    key.isLess other = true ↔ key.urgency < other.urgency ∨ key.urgency = other.urgency ∧
      key.incremental = false ∧ (other.incremental = true ∨ key.id < other.id) := by
  rw [isLess, beq_iff_eq, cmp, if_neg distinct]
  by_cases same : key.urgency = other.urgency
  · rw [if_neg (not_not_intro same)]
    have equal : ¬key.urgency < other.urgency := same ▸ UInt8.lt_irrefl _
    cases first : key.incremental <;> cases second : other.incremental <;>
      simp [same, Nat.compare_eq_lt]
  · rw [if_pos same, show compare key.urgency other.urgency = compareOfLessAndEq key.urgency other.urgency from rfl,
      compareOfLessAndEq_eq_lt]
    simp [same]

/-- Which of two linked streams is served first; `stamps` tells when each was last inserted. -/
def Before (stamps : Nat → Option Nat) (key other : StreamPriorityKey) : Prop :=
  key.urgency < other.urgency ∨ key.urgency = other.urgency ∧
    (key.incremental = false ∧ (other.incremental = true ∨ key.id < other.id) ∨
      key.incremental = true ∧ other.incremental = true ∧
        ∃ earlier later, stamps key.id = some earlier ∧ stamps other.id = some later ∧ earlier < later)

variable {stamps : Nat → Option Nat}

theorem before_of_isLess (distinct : key.id ≠ other.id)
    (isLess : key.isLess other = true) : Before stamps key other := by
  rcases (isLess_iff distinct).mp isLess with urgent | ⟨same, first, later⟩
  · exact .inl urgent
  · exact .inr ⟨same, .inl ⟨first, later⟩⟩

theorem before_of_not_isLess {earlier later : Nat} (distinct : key.id ≠ other.id)
    (notLess : key.isLess other = false) (was : stamps other.id = some earlier) (now : stamps key.id = some later)
    (past : earlier < later) : Before stamps other key := by
  have refused : ¬(key.urgency < other.urgency ∨ key.urgency = other.urgency ∧
      key.incremental = false ∧ (other.incremental = true ∨ key.id < other.id)) := by
    rw [← isLess_iff distinct, notLess]
    exact Bool.false_ne_true
  by_cases same : key.urgency = other.urgency
  · refine .inr ⟨same.symm, ?_⟩
    cases first : key.incremental with
    | false =>
      have order : other.incremental = false ∧ ¬key.id < other.id := by
        simpa [same, first] using refused
      exact .inl ⟨order.1, .inr (by omega)⟩
    | true =>
      cases second : other.incremental with
      | false => exact .inl ⟨rfl, .inl rfl⟩
      | true => exact .inr ⟨rfl, rfl, earlier, later, was, now, past⟩
  · have greater : ¬key.urgency < other.urgency := fun urgent => refused (.inl urgent)
    exact .inl (UInt8.lt_of_le_of_ne (UInt8.not_lt.mp greater) (Ne.symm same))

theorem isLess_of_before {third : StreamPriorityKey} (before : Before stamps other third)
    (distinct : key.id ≠ other.id) (distinct' : key.id ≠ third.id) (isLess : key.isLess other = true) :
    key.isLess third = true := by
  rw [isLess_iff distinct] at isLess
  rw [isLess_iff distinct']
  rcases before with urgent | ⟨same, order⟩
  · rcases isLess with more | ⟨equal, _⟩
    · exact .inl (UInt8.lt_trans more urgent)
    · exact .inl (equal ▸ urgent)
  · rw [← same]
    rcases isLess with more | ⟨equal, first, second⟩
    · exact .inl more
    · refine .inr ⟨equal, first, ?_⟩
      rcases order with ⟨plain, later⟩ | ⟨_, also, _⟩
      · have lower : key.id < other.id := by simpa [plain] using second
        rcases later with incremental | higher
        · exact .inl incremental
        · exact .inr (Nat.lt_trans lower higher)
      · exact .inl also

theorem Before.congr {stamps' : Nat → Option Nat} (before : Before stamps key other)
    (first : stamps' key.id = stamps key.id) (second : stamps' other.id = stamps other.id) :
    Before stamps' key other := by
  rw [Before, first, second]
  exact before

end StreamPriorityKey

namespace StreamQueue

open StreamPriorityKey

variable {queue : StreamQueue} {key other : StreamPriorityKey} {stamps : Nat → Option Nat} {clock : Nat}

theorem link_eq_place : queue.link key = SearchTree.place isLess key queue := rfl

/-- The queue lists the streams that are linked, in their order. -/
structure Listed (stamps : Nat → Option Nat) (clock : Nat) (queue : StreamQueue) : Prop where
  ordered : queue.Pairwise (Before stamps)
  once : (queue.map StreamPriorityKey.id).Nodup
  linked : ∀ id, (stamps id).isSome = true ↔ id ∈ queue.map StreamPriorityKey.id
  past : ∀ id stamp, stamps id = some stamp → stamp < clock

section

variable (listed : Listed stamps clock queue) (fresh : stamps key.id = none)

include listed fresh

theorem Listed.distinct (member : other ∈ queue) : key.id ≠ other.id := by
  intro same
  have linked := (listed.linked key.id).mpr (same ▸ List.mem_map_of_mem member)
  simp [fresh] at linked

theorem Listed.splits : SearchTree.Splits isLess key queue := listed.ordered.imp_of_mem fun first second before =>
    isLess_of_before before (listed.distinct fresh first) (listed.distinct fresh second)

theorem Listed.inorder_insert {tree : SearchTree StreamPriorityKey} (holds : tree.inorder = queue) :
    (tree.insert isLess key).inorder = queue.link key := by
  subst holds
  exact SearchTree.inorder_insert (listed.splits fresh)

end

theorem map_link_perm : ((queue.link key).map StreamPriorityKey.id).Perm (key.id :: queue.map StreamPriorityKey.id) :=
  (link_perm queue key).map _

section

variable (listed : Listed stamps clock queue)

include listed

theorem Listed.link (fresh : stamps key.id = none) :
    Listed (Function.update stamps key.id (some clock)) (clock + 1) (queue.link key) := by
  have absent : key.id ∉ queue.map StreamPriorityKey.id := by
    rw [← listed.linked, fresh]
    exact Bool.false_ne_true
  have stays : ∀ other ∈ queue, Function.update stamps key.id (some clock) other.id = stamps other.id :=
    fun other member => Function.update_of_ne (listed.distinct fresh member).symm _ _
  refine ⟨?_, ?_, fun id => ?_, fun id stamp stamped => ?_⟩
  · have ordered : queue.Pairwise (Before (Function.update stamps key.id (some clock))) :=
      listed.ordered.imp_of_mem fun first second before => before.congr (stays _ first) (stays _ second)
    have whole : queue = queue.takeWhile (!key.isLess ·) ++ queue.dropWhile (!key.isLess ·) :=
      List.takeWhile_append_dropWhile.symm
    rw [whole, List.pairwise_append] at ordered
    obtain ⟨front, back, across⟩ := ordered
    rw [link_eq_place, SearchTree.place, List.pairwise_append, List.pairwise_cons]
    refine ⟨front, ⟨fun other member => ?_, back⟩, fun other member third after => ?_⟩
    · have inQueue := (List.dropWhile_sublist _).subset member
      exact before_of_isLess (listed.distinct fresh inQueue) ((listed.splits fresh).less_of_mem member)
    · rcases List.mem_cons.mp after with rfl | behind
      · have inQueue := (List.takeWhile_sublist _).subset member
        have notLess : third.isLess other = false := by
          simpa using List.mem_takeWhile_imp member
        have linked := (listed.linked other.id).mpr (List.mem_map_of_mem inQueue)
        obtain ⟨stamp, stamped⟩ := Option.isSome_iff_exists.mp linked
        exact before_of_not_isLess (listed.distinct fresh inQueue) notLess ((stays other inQueue).trans stamped)
          (Function.update_self ..) (listed.past _ _ stamped)
      · exact across other member third behind
  · exact map_link_perm.nodup_iff.mpr (List.nodup_cons.mpr ⟨absent, listed.once⟩)
  · rw [map_link_perm.mem_iff, List.mem_cons, ← listed.linked, Function.update_apply]
    split
    · simp [*]
    · simp [*]
  · rw [Function.update_apply] at stamped
    split at stamped
    · cases stamped
      exact Nat.lt_succ_self _
    · exact Nat.lt_succ_of_lt (listed.past _ _ stamped)

theorem Listed.remove (member : key ∈ queue) :
    Listed (Function.update stamps key.id none) clock (queue.remove key) := by
  have perm := List.perm_cons_erase member
  have ids : (queue.map StreamPriorityKey.id).Perm (key.id :: (queue.remove key).map StreamPriorityKey.id) := perm.map _
  obtain ⟨absent, once⟩ := List.nodup_cons.mp (ids.nodup_iff.mp listed.once)
  have stays : ∀ other ∈ queue.remove key, Function.update stamps key.id none other.id = stamps other.id := by
    intro other kept
    refine Function.update_of_ne (fun same => absent ?_) _ _
    rw [← same]
    exact List.mem_map_of_mem kept
  refine ⟨?_, once, fun id => ?_, fun id stamp stamped => ?_⟩
  · exact (listed.ordered.sublist List.erase_sublist).imp_of_mem fun first second before =>
      before.congr (stays _ first) (stays _ second)
  · rw [Function.update_apply]
    split
    · rename_i same
      rw [same]
      simp [absent]
    · rename_i differs
      rw [listed.linked, ids.mem_iff, List.mem_cons]
      simp [differs]
  · rw [Function.update_apply] at stamped
    split at stamped
    · cases stamped
    · exact listed.past _ _ stamped

theorem Listed.later : Listed stamps (clock + 1) queue :=
  { listed with past := fun id stamp stamped => Nat.lt_succ_of_lt (listed.past id stamp stamped) }

end

end StreamQueue

/-- The queues of a `StreamMap` that are ordered by priority. -/
inductive QueueKind where
  | readable
  | writable
  | flushable
deriving DecidableEq

namespace StreamMap

def queue (map : StreamMap) : QueueKind → StreamQueue
  | .readable => map.readable
  | .writable => map.writable
  | .flushable => map.flushable

def insertInto (map : StreamMap) (key : StreamPriorityKey) : QueueKind → StreamMap
  | .readable => map.insertReadable key
  | .writable => map.insertWritable key
  | .flushable => map.insertFlushable key

def removeFrom (map : StreamMap) (key : StreamPriorityKey) : QueueKind → StreamMap
  | .readable => map.removeReadable key
  | .writable => map.removeWritable key
  | .flushable => map.removeFlushable key

def shuffle (map : StreamMap) (key : StreamPriorityKey) (kind : QueueKind) : StreamMap :=
  (map.removeFrom key kind).insertInto key kind

end StreamMap

abbrev Stamps := QueueKind → Nat → Option Nat

namespace Stamps

def set (stamps : Stamps) (kind : QueueKind) (id : Nat) (stamp : Option Nat) : Stamps :=
  Function.update stamps kind (Function.update (stamps kind) id stamp)

/-- A stream gets a new place in every queue in which it is linked. -/
def relink (stamps : Stamps) (id clock : Nat) : Stamps :=
  fun kind => Function.update (stamps kind) id ((stamps kind id).map fun _ => clock)

def unlink (stamps : Stamps) (id : Nat) : Stamps := fun kind => Function.update (stamps kind) id none

end Stamps

structure Scheduler where
  conn : Connection
  clock : Nat
  stamps : Stamps

namespace Scheduler

def new (conn : Connection) : Scheduler := ⟨conn, 0, fun _ _ => none⟩

inductive Op where
  | insert (kind : QueueKind) (id : Nat)
  | remove (kind : QueueKind) (id : Nat)
  | shuffle (kind : QueueKind) (id : Nat)
  /-- `stream_priority` -/
  | priority (id : Nat) (urgency : UInt8) (incremental : Bool)
  | getOrCreate (id : Nat) (locally : Bool)
  | collect (id : Nat)

def withKey (sched : Scheduler) (id : Nat) (change : StreamMap → StreamPriorityKey → StreamMap) (stamps : Stamps) :
    Scheduler :=
  match sched.conn.streams.get id with
  | none => sched
  | some stream =>
    ⟨{ sched.conn with streams := change sched.conn.streams stream.priorityKey }, sched.clock + 1, stamps⟩

/-- A stream that is new may be inserted as writable; `none` is the error. -/
def getOrCreate (sched : Scheduler) (id : Nat) (locally : Bool) : Option (Scheduler × Stream) :=
  match sched.conn.getOrCreateStream id locally with
  | .error _ => none
  | .ok (streams, stream) =>
    let stamps :=
      if (sched.conn.streams.get id).isNone ∧ stream.isWritable then
        sched.stamps.set .writable id (some sched.clock)
      else sched.stamps
    some (⟨{ sched.conn with streams }, sched.clock + 1, stamps⟩, stream)

def step (sched : Scheduler) : Op → Option Scheduler
  | .insert kind id =>
    some (sched.withKey id (fun map key => map.insertInto key kind)
      (if (sched.stamps kind id).isSome then sched.stamps else sched.stamps.set kind id (some sched.clock)))
  | .remove kind id =>
    some (sched.withKey id (fun map key => map.removeFrom key kind) (sched.stamps.set kind id none))
  | .shuffle kind id =>
    some (sched.withKey id (fun map key => map.shuffle key kind) (sched.stamps.set kind id (some sched.clock)))
  | .priority id urgency incremental =>
    match sched.getOrCreate id true with
    | none => some { sched with conn := (sched.conn.streamPriority id urgency incremental).1 }
    | some (opened, stream) =>
      some ⟨(sched.conn.streamPriority id urgency incremental).1, opened.clock + 1,
        if stream.urgency = urgency ∧ stream.incremental = incremental then opened.stamps
        else opened.stamps.relink id opened.clock⟩
  | .getOrCreate id locally => some ((sched.getOrCreate id locally).elim sched Prod.fst)
  | .collect id =>
    match sched.conn.streams.get id with
    | none => some sched
    | some stream => do
      let streams ← sched.conn.streams.collect id stream.isLocal
      return ⟨{ sched.conn with streams }, sched.clock + 1, sched.stamps.unlink id⟩

def machine : Machine Scheduler Op := ⟨step⟩

open StreamQueue StreamPriorityKey

variable {sched : Scheduler} {id : Nat} {stream : Stream} {kind : QueueKind}

/-- Each queue holds the keys of stored streams, in their order. -/
structure InOrder (sched : Scheduler) : Prop where
  keyed : ∀ id stream, sched.conn.streams.get id = some stream →
    stream.priorityKey = ⟨stream.urgency, stream.incremental, id⟩
  owned : ∀ kind, ∀ key ∈ sched.conn.streams.queue kind,
    ∃ stream, sched.conn.streams.get key.id = some stream ∧ stream.priorityKey = key
  listed : ∀ kind, Listed (sched.stamps kind) sched.clock (sched.conn.streams.queue kind)

theorem InOrder.key_id (inOrder : sched.InOrder) (found : sched.conn.streams.get id = some stream) :
    stream.priorityKey.id = id := by
  rw [inOrder.keyed id stream found]

theorem InOrder.linked_iff (inOrder : sched.InOrder) (kind : QueueKind)
    (found : sched.conn.streams.get id = some stream) :
    (sched.stamps kind id).isSome = true ↔ stream.priorityKey ∈ sched.conn.streams.queue kind := by
  rw [(inOrder.listed kind).linked, List.mem_map]
  constructor
  · rintro ⟨key, member, rfl⟩
    obtain ⟨owner, present, same⟩ := inOrder.owned kind key member
    cases found.symm.trans present
    rw [same]
    exact member
  · intro member
    exact ⟨_, member, inOrder.key_id found⟩

variable {map : StreamMap} {stamps : Stamps} {other : QueueKind} {key : StreamPriorityKey}

theorem InOrder.change (inOrder : sched.InOrder)
    (found : sched.conn.streams.get id = some stream) (streams : map.streams = sched.conn.streams.streams)
    (others : ∀ other, other ≠ kind →
      map.queue other = sched.conn.streams.queue other ∧ stamps other = sched.stamps other)
    (owned : ∀ key ∈ map.queue kind, key = stream.priorityKey ∨ key ∈ sched.conn.streams.queue kind)
    (listed : Listed (stamps kind) (sched.clock + 1) (map.queue kind)) :
    InOrder ⟨{ sched.conn with streams := map }, sched.clock + 1, stamps⟩ := by
  have same : ∀ id, map.get id = sched.conn.streams.get id := fun id => by
    rw [StreamMap.get, StreamMap.get, streams]
  refine ⟨fun other old present => inOrder.keyed other old (same other ▸ present), fun other key member => ?_,
    fun other => ?_⟩
  · show ∃ owner, map.get key.id = some owner ∧ owner.priorityKey = key
    rw [same]
    by_cases here : other = kind
    · subst here
      rcases owned key member with rfl | old
      · exact ⟨stream, by rw [inOrder.key_id found]; exact found, rfl⟩
      · exact inOrder.owned other key old
    · refine inOrder.owned other key ?_
      rw [← (others other here).1]
      exact member
  · show Listed (stamps other) (sched.clock + 1) (map.queue other)
    by_cases here : other = kind
    · subst here
      exact listed
    · rw [(others other here).1, (others other here).2]
      exact (inOrder.listed other).later

theorem set_others {stamp : Option Nat} (differs : other ≠ kind) : stamps.set kind id stamp other = stamps other :=
  Function.update_of_ne differs _ _

theorem set_same {stamp : Option Nat} : stamps.set kind id stamp kind = Function.update (stamps kind) id stamp :=
  Function.update_self ..

section

variable (map : StreamMap) (key : StreamPriorityKey) (kind : QueueKind)

theorem queue_insertInto : (map.insertInto key kind).queue kind = (map.queue kind).insert key := by
  cases kind <;> rfl

theorem queue_removeFrom : (map.removeFrom key kind).queue kind = (map.queue kind).remove key := by
  cases kind <;> rfl

theorem insertInto_streams : (map.insertInto key kind).streams = map.streams := by
  cases kind <;> rfl

theorem removeFrom_streams : (map.removeFrom key kind).streams = map.streams := by
  cases kind <;> rfl

end

theorem insertInto_others (differs : other ≠ kind) : (map.insertInto key kind).queue other = map.queue other := by
  cases kind <;> cases other <;> first | rfl | exact (differs rfl).elim

theorem removeFrom_others (differs : other ≠ kind) : (map.removeFrom key kind).queue other = map.queue other := by
  cases kind <;> cases other <;> first | rfl | exact (differs rfl).elim

section

variable (inOrder : sched.InOrder)

include inOrder

theorem InOrder.insert (kind : QueueKind) (id : Nat) :
    ∃ next, sched.step (.insert kind id) = some next ∧ next.InOrder := by
  refine ⟨_, rfl, ?_⟩
  rw [withKey]
  cases found : sched.conn.streams.get id with
  | none => exact inOrder
  | some stream =>
    have ours := inOrder.key_id found
    have linked := inOrder.linked_iff kind found
    have put := queue_insertInto sched.conn.streams stream.priorityKey kind
    have kept := insertInto_streams sched.conn.streams stream.priorityKey kind
    dsimp only
    by_cases member : stream.priorityKey ∈ sched.conn.streams.queue kind
    · rw [StreamQueue.insert, if_pos member] at put
      rw [if_pos (linked.mpr member)]
      refine inOrder.change found kept (fun other differs => ⟨insertInto_others differs, rfl⟩) ?_ ?_
      · rw [put]
        exact fun key inQueue => .inr inQueue
      · rw [put]
        exact (inOrder.listed kind).later
    · have fresh : sched.stamps kind id = none := by
        rw [← linked] at member
        simpa using member
      rw [StreamQueue.insert, if_neg member] at put
      rw [if_neg (by simp [fresh])]
      refine inOrder.change found kept (fun other differs => ⟨insertInto_others differs, set_others differs⟩) ?_ ?_
      · rw [put]
        intro key inQueue
        exact List.mem_cons.mp ((link_perm _ _).mem_iff.mp inQueue)
      · rw [put, set_same, ← ours]
        exact (inOrder.listed kind).link (ours.symm ▸ fresh)

theorem InOrder.unlinked (kind : QueueKind) (found : sched.conn.streams.get id = some stream) :
    Listed (Function.update (sched.stamps kind) id none) sched.clock
      ((sched.conn.streams.queue kind).remove stream.priorityKey) := by
  have ours := inOrder.key_id found
  by_cases member : stream.priorityKey ∈ sched.conn.streams.queue kind
  · rw [← ours]
    exact (inOrder.listed kind).remove member
  · have fresh : sched.stamps kind id = none := by
      rw [← inOrder.linked_iff kind found] at member
      simpa using member
    rw [StreamQueue.remove, List.erase_of_not_mem member, ← fresh, Function.update_eq_self]
    exact inOrder.listed kind

theorem InOrder.relinked
    (found : sched.conn.streams.get id = some stream) (ours : key.id = id) :
    Listed (Function.update (sched.stamps kind) id (some sched.clock)) (sched.clock + 1)
      (((sched.conn.streams.queue kind).remove stream.priorityKey).link key) := by
  subst ours
  have linked := (inOrder.unlinked kind found).link (Function.update_self ..)
  rwa [Function.update_idem] at linked

theorem InOrder.remove (kind : QueueKind) (id : Nat) :
    ∃ next, sched.step (.remove kind id) = some next ∧ next.InOrder := by
  refine ⟨_, rfl, ?_⟩
  rw [withKey]
  cases found : sched.conn.streams.get id with
  | none => exact inOrder
  | some stream =>
    have taken := queue_removeFrom sched.conn.streams stream.priorityKey kind
    refine inOrder.change found (removeFrom_streams sched.conn.streams stream.priorityKey kind)
      (fun other differs => ⟨removeFrom_others differs, set_others differs⟩) ?_ ?_
    · rw [taken]
      exact fun key inQueue => .inr (List.mem_of_mem_erase inQueue)
    · rw [taken, set_same]
      exact (inOrder.unlinked kind found).later

theorem InOrder.shuffle (kind : QueueKind) (id : Nat) :
    ∃ next, sched.step (.shuffle kind id) = some next ∧ next.InOrder := by
  refine ⟨_, rfl, ?_⟩
  rw [withKey]
  cases found : sched.conn.streams.get id with
  | none => exact inOrder
  | some stream =>
    have absent : stream.priorityKey ∉ (sched.conn.streams.queue kind).remove stream.priorityKey := by
      have once := (inOrder.unlinked kind found).linked id
      intro member
      have again := List.mem_map_of_mem (f := StreamPriorityKey.id) member
      rw [inOrder.key_id found, ← once, Function.update_self] at again
      cases again
    have shuffled : (sched.conn.streams.shuffle stream.priorityKey kind).queue kind =
        ((sched.conn.streams.queue kind).remove stream.priorityKey).link stream.priorityKey := by
      rw [StreamMap.shuffle, queue_insertInto, queue_removeFrom, StreamQueue.insert, if_neg absent]
    refine inOrder.change found ?_
      (fun other differs => ⟨(insertInto_others differs).trans (removeFrom_others differs), set_others differs⟩)
      ?_ ?_
    · rw [StreamMap.shuffle, insertInto_streams, removeFrom_streams]
    · rw [shuffled]
      intro key inQueue
      rcases List.mem_cons.mp ((link_perm _ _).mem_iff.mp inQueue) with rfl | kept
      · exact .inl rfl
      · exact .inr (List.mem_of_mem_erase kept)
    · rw [shuffled, set_same]
      exact inOrder.relinked found (inOrder.key_id found)

theorem InOrder.later : InOrder { sched with clock := sched.clock + 1 } :=
  { inOrder with listed := fun kind => (inOrder.listed kind).later }

theorem InOrder.absent (absent : sched.conn.streams.get id = none) :
    sched.stamps kind id = none := by
  cases stamped : sched.stamps kind id with
  | none => rfl
  | some stamp =>
    have linked := ((inOrder.listed kind).linked id).mp (by rw [stamped]; rfl)
    obtain ⟨key, member, rfl⟩ := List.mem_map.mp linked
    obtain ⟨owner, present, _⟩ := inOrder.owned kind key member
    cases absent.symm.trans present

end

theorem getOrCreate_opens {next : StreamMap} {localParams peerParams : TransportParams}
    {locally isServer : Bool} (handed : map.getOrCreate id localParams peerParams locally isServer = .ok (next, stream))
    (absent : map.get id = none) :
    stream.priorityKey = ⟨stream.urgency, stream.incremental, id⟩ ∧ next.streams = map.streams.insert id stream ∧
      next.readable = map.readable ∧ next.flushable = map.flushable ∧
      next.writable = if stream.isWritable then map.writable.link stream.priorityKey else map.writable := by
  rw [StreamMap.getOrCreate, absent] at handed
  dsimp only at handed
  split at handed
  · cases handed
  split at handed
  · cases handed
  cases enforced : map.enforceLimits id isServer with
  | error error =>
    rw [enforced] at handed
    cases handed
  | ok counted =>
    rw [enforced] at handed
    cases handed
    obtain ⟨_, _, _, _, rfl⟩ := StreamMap.enforceLimits_cases enforced
    exact ⟨rfl, rfl, rfl, rfl, rfl⟩

section

variable (inOrder : sched.InOrder)

include inOrder

theorem InOrder.getOrCreate {opened : Scheduler} {locally : Bool}
    (handed : sched.getOrCreate id locally = some (opened, stream)) :
    opened.InOrder ∧ opened.conn.streams.get id = some stream ∧
      sched.conn.getOrCreateStream id locally = .ok (opened.conn.streams, stream) ∧
      opened.conn = { sched.conn with streams := opened.conn.streams } := by
  rw [Scheduler.getOrCreate] at handed
  split at handed
  · cases handed
  rename_i streams stream created
  cases handed
  cases found : sched.conn.streams.get id with
  | some old =>
    have same : streams = sched.conn.streams ∧ old = stream := by
      rw [Connection.getOrCreateStream, StreamMap.getOrCreate, found] at created
      cases created
      exact ⟨rfl, rfl⟩
    obtain ⟨rfl, rfl⟩ := same
    refine ⟨?_, found, created, rfl⟩
    simpa using inOrder.later
  | none =>
    obtain ⟨keyed, inserted, readable, flushable, writable⟩ := getOrCreate_opens created found
    have present : streams.get id = some stream := by
      rw [StreamMap.get, inserted, AList.lookup_insert]
    have others : ∀ other, other ≠ id → streams.get other = sched.conn.streams.get other := fun other differs => by
      rw [StreamMap.get, inserted, AList.lookup_insert_ne differs]
      rfl
    have fresh : sched.stamps .writable stream.priorityKey.id = none := by
      rw [keyed]
      exact inOrder.absent found
    refine ⟨⟨fun other old held => ?_, fun kind key member => ?_, fun kind => ?_⟩, present, created, rfl⟩
    · by_cases here : other = id
      · subst here
        cases present.symm.trans held
        exact keyed
      · exact inOrder.keyed other old (others other here ▸ held)
    · have stays (inQueue : key ∈ sched.conn.streams.queue kind) :
          ∃ owner, streams.get key.id = some owner ∧ owner.priorityKey = key := by
        obtain ⟨owner, held, same⟩ := inOrder.owned kind key inQueue
        refine ⟨owner, ?_, same⟩
        rwa [others key.id fun here => by rw [here, found] at held; cases held]
      cases kind with
      | readable =>
        rw [StreamMap.queue, readable] at member
        exact stays member
      | flushable =>
        rw [StreamMap.queue, flushable] at member
        exact stays member
      | writable =>
        change key ∈ streams.writable at member
        rw [writable] at member
        split at member
        · rcases List.mem_cons.mp ((link_perm _ _).mem_iff.mp member) with rfl | inQueue
          · exact ⟨stream, by rw [keyed]; exact present, rfl⟩
          · exact stays inQueue
        · exact stays member
    · show Listed ((if (none : Option Stream).isNone ∧ stream.isWritable then _ else _ : Stamps) kind) _
        (streams.queue kind)
      by_cases writes : stream.isWritable = true
      · rw [if_pos ⟨rfl, writes⟩]
        rw [if_pos writes] at writable
        have ours : stream.priorityKey.id = id := by rw [keyed]
        cases kind with
        | readable =>
          rw [set_others (by decide), StreamMap.queue, readable]
          exact (inOrder.listed .readable).later
        | flushable =>
          rw [set_others (by decide), StreamMap.queue, flushable]
          exact (inOrder.listed .flushable).later
        | writable =>
          rw [set_same, StreamMap.queue, writable, ← ours]
          exact (inOrder.listed .writable).link fresh
      · rw [if_neg fun both => writes both.2]
        rw [if_neg writes] at writable
        have same : streams.queue kind = sched.conn.streams.queue kind := by
          cases kind with
          | readable => exact readable
          | flushable => exact flushable
          | writable => exact writable
        rw [same]
        exact (inOrder.listed kind).later

theorem InOrder.reprioritize (found : sched.conn.streams.get id = some stream)
    (changed : Stream) (keyed : changed.priorityKey = ⟨changed.urgency, changed.incremental, id⟩) :
    InOrder ⟨{ sched.conn with
      streams := (sched.conn.streams.set id changed).updatePriority stream.priorityKey changed.priorityKey },
      sched.clock + 1, sched.stamps.relink id sched.clock⟩ := by
  have ours : changed.priorityKey.id = id := by rw [keyed]
  generalize shifted :
    (sched.conn.streams.set id changed).updatePriority stream.priorityKey changed.priorityKey = map
  have present : map.get id = some changed := by
    rw [← shifted]
    exact AList.lookup_insert _
  have others : ∀ other, other ≠ id → map.get other = sched.conn.streams.get other := by
    intro other differs
    rw [← shifted]
    exact AList.lookup_insert_ne differs
  have moved : ∀ kind, map.queue kind =
      (sched.conn.streams.queue kind).updatePriority stream.priorityKey changed.priorityKey := by
    intro kind
    rw [← shifted]
    cases kind <;> rfl
  refine ⟨fun other old held => ?_, fun kind key member => ?_, fun kind => ?_⟩
  · by_cases here : other = id
    · subst here
      cases present.symm.trans held
      exact keyed
    · exact inOrder.keyed other old ((others other here).symm.trans held)
  · change key ∈ map.queue kind at member
    show ∃ owner, map.get key.id = some owner ∧ owner.priorityKey = key
    rw [moved, StreamQueue.updatePriority] at member
    have stays (inQueue : key ∈ sched.conn.streams.queue kind) (differs : key ≠ stream.priorityKey) :
        key.id ≠ id := by
      rintro here
      obtain ⟨owner, held, same⟩ := inOrder.owned kind key inQueue
      rw [here, found] at held
      cases held
      exact differs same.symm
    have kept (inQueue : key ∈ sched.conn.streams.queue kind) (differs : key.id ≠ id) :
        ∃ owner, map.get key.id = some owner ∧ owner.priorityKey = key := by
      obtain ⟨owner, held, same⟩ := inOrder.owned kind key inQueue
      exact ⟨owner, (others key.id differs).trans held, same⟩
    have once := inOrder.listed kind
    split at member
    · rcases List.mem_cons.mp ((link_perm _ _).mem_iff.mp member) with rfl | inQueue
      · exact ⟨changed, by rw [ours]; exact present, rfl⟩
      · have nodup : (sched.conn.streams.queue kind).Nodup := List.Nodup.of_map _ once.once
        obtain ⟨differs, old⟩ := (mem_remove nodup).mp inQueue
        exact kept old (stays old differs)
    · rename_i unlinked
      exact kept member (stays member fun same => unlinked (same ▸ member))
  · show Listed (Stamps.relink sched.stamps id sched.clock kind) _ _
    rw [moved, StreamQueue.updatePriority, Stamps.relink]
    have linked := inOrder.linked_iff kind found
    by_cases member : stream.priorityKey ∈ sched.conn.streams.queue kind
    · obtain ⟨stamp, stamped⟩ := Option.isSome_iff_exists.mp (linked.mpr member)
      rw [if_pos member, stamped, Option.map_some]
      exact inOrder.relinked found ours
    · have fresh : sched.stamps kind id = none := by
        rw [← linked] at member
        simpa using member
      rw [if_neg member, fresh, Option.map_none, ← fresh, Function.update_eq_self]
      exact (inOrder.listed kind).later

theorem InOrder.priority (id : Nat) (urgency : UInt8) (incremental : Bool) :
    ∃ next, sched.step (.priority id urgency incremental) = some next ∧ next.InOrder := by
  rw [step]
  cases handed : sched.getOrCreate id true with
  | none =>
    refine ⟨_, rfl, ?_⟩
    have refused : (sched.conn.streamPriority id urgency incremental).1 = sched.conn := by
      rw [Scheduler.getOrCreate] at handed
      rw [Connection.streamPriority]
      split at handed
      · rename_i error failed
        rw [failed]
        cases error <;> rfl
      · cases handed
    rw [refused]
    exact inOrder
  | some answer =>
    obtain ⟨opened, stream⟩ := answer
    obtain ⟨opens, present, created, conn⟩ := inOrder.getOrCreate handed
    refine ⟨_, rfl, ?_⟩
    rw [Connection.streamPriority, created]
    by_cases same : stream.urgency = urgency ∧ stream.incremental = incremental
    · simp only [if_pos same, ← conn]
      exact opens.later
    · simp only [if_neg same]
      have moved := opens.reprioritize present
        { stream with urgency, incremental, priorityKey := ⟨urgency, incremental, id⟩ } rfl
      rw [conn] at moved
      exact moved

theorem InOrder.collect (id : Nat) :
    ∃ next, sched.step (.collect id) = some next ∧ next.InOrder := by
  rw [step]
  cases found : sched.conn.streams.get id with
  | none => exact ⟨_, rfl, inOrder⟩
  | some stream =>
    have collects : ∃ map, sched.conn.streams.collect id stream.isLocal = some map ∧
        map.streams = sched.conn.streams.streams.erase id ∧
        ∀ kind, map.queue kind = (sched.conn.streams.queue kind).remove stream.priorityKey := by
      refine ⟨_, Option.bind_eq_some_iff.mpr ⟨stream, found, rfl⟩, rfl, fun kind => ?_⟩
      cases kind <;> rfl
    obtain ⟨map, collected, streams, queues⟩ := collects
    refine ⟨_, Option.bind_eq_some_iff.mpr ⟨map, collected, rfl⟩, ?_⟩
    have gone : ∀ other old, (sched.conn.streams.streams.erase id).lookup other = some old →
        other ≠ id ∧ sched.conn.streams.get other = some old := by
      intro other old held
      by_cases here : other = id
      · rw [here, AList.lookup_erase] at held
        cases held
      · exact ⟨here, (AList.lookup_erase_ne here).symm.trans held⟩
    have erased (kind : QueueKind) : Listed (sched.stamps.unlink id kind) (sched.clock + 1)
        ((sched.conn.streams.queue kind).remove stream.priorityKey) := (inOrder.unlinked kind found).later
    have owned (kind : QueueKind) : ∀ key ∈ (sched.conn.streams.queue kind).remove stream.priorityKey,
        ∃ owner, (sched.conn.streams.streams.erase id).lookup key.id = some owner ∧ owner.priorityKey = key := by
      intro key member
      obtain ⟨owner, held, same⟩ := inOrder.owned kind key (List.mem_of_mem_erase member)
      refine ⟨owner, ?_, same⟩
      rw [AList.lookup_erase_ne]
      · exact held
      · intro here
        have linked := ((erased kind).linked id).mpr (here ▸ List.mem_map_of_mem member)
        simp [Stamps.unlink] at linked
    refine ⟨fun other old held => inOrder.keyed other old (gone other old (streams ▸ held)).2,
      fun kind key member => ?_, fun kind => ?_⟩
    · obtain ⟨owner, held, same⟩ := owned kind key (queues kind ▸ member)
      exact ⟨owner, by rw [StreamMap.get, streams]; exact held, same⟩
    · show Listed _ _ (map.queue kind)
      rw [queues]
      exact erased kind

theorem InOrder.step (op : Op) : ∃ next, sched.step op = some next ∧ next.InOrder := by
  cases op with
  | insert kind id => exact inOrder.insert kind id
  | remove kind id => exact inOrder.remove kind id
  | shuffle kind id => exact inOrder.shuffle kind id
  | priority id urgency incremental => exact inOrder.priority id urgency incremental
  | getOrCreate id locally =>
    refine ⟨_, rfl, ?_⟩
    cases handed : sched.getOrCreate id locally with
    | none => exact inOrder
    | some answer => exact (inOrder.getOrCreate handed).1
  | collect id => exact inOrder.collect id

end

theorem new_inOrder (config : Config) (scid : List UInt8) (localAddr peerAddr : SocketAddr)
    (addressVerified isServer : Bool) :
    (new (.new config scid localAddr peerAddr addressVerified isServer)).InOrder := by
  refine ⟨fun id stream found => ?_, fun kind key member => ?_, fun kind => ?_⟩
  · cases found
  · cases kind <;> cases member
  · cases kind <;> exact ⟨.nil, .nil, fun id => by simp [new, StreamMap.queue, Connection.new, StreamMap.new], nofun⟩

/-- In any run of the operations on the queues, each lists every stream that is linked in it once,
under its current priority: by urgency, those that are not incremental first and by id, the
incremental ones as they were last inserted. A search tree of any shape with this order inserts
the next key where the queue does. -/
theorem queues_in_order (config : Config) (scid : List UInt8) (localAddr peerAddr : SocketAddr)
    (addressVerified isServer : Bool) (ops : List Op) :
    ∃ sched, machine.run (new (.new config scid localAddr peerAddr addressVerified isServer)) ops = some sched ∧
      ∀ kind, (sched.conn.streams.queue kind).Pairwise (Before (sched.stamps kind)) ∧
        (∀ id, ((sched.conn.streams.queue kind).map StreamPriorityKey.id).count id =
          if (sched.stamps kind id).isSome then 1 else 0) ∧
        (∀ key ∈ sched.conn.streams.queue kind, ∃ stream, sched.conn.streams.get key.id = some stream ∧
          key = ⟨stream.urgency, stream.incremental, key.id⟩) ∧
        ∀ tree key, SearchTree.inorder tree = sched.conn.streams.queue kind → sched.stamps kind key.id = none →
          (tree.insert isLess key).inorder = (sched.conn.streams.queue kind).link key := by
  have preserved : ∀ sched op, InOrder sched → ∃ next, machine.step sched op = some next ∧ next.InOrder :=
    fun _ op inOrder => inOrder.step op
  obtain ⟨sched, completed, inOrder⟩ :=
    machine.run_total preserved (new_inOrder config scid localAddr peerAddr addressVerified isServer) ops
  refine ⟨sched, completed, fun kind => ⟨(inOrder.listed kind).ordered, fun id => ?_, fun key member => ?_,
    fun tree key holds fresh => (inOrder.listed kind).inorder_insert fresh holds⟩⟩
  · have listed := inOrder.listed kind
    by_cases linked : (sched.stamps kind id).isSome = true
    · rw [if_pos linked]
      exact List.count_eq_one_of_mem listed.once ((listed.linked id).mp linked)
    · rw [if_neg linked]
      exact List.count_eq_zero_of_not_mem fun member => linked ((listed.linked id).mpr member)
  · obtain ⟨stream, found, same⟩ := inOrder.owned kind key member
    exact ⟨stream, found, same.symm.trans (inOrder.keyed key.id stream found)⟩

end Scheduler

end Quiche
