import Quiche.Data.PartitionPoint
import Quiche.Frame

namespace Quiche

open Data

def retiredConnIdLimitMultiplier : Nat := 3

/-- A set of sequence numbers with at most `capacity` members. -/
structure ConnectionIdSeqSet where
  inner : List Nat
  capacity : Nat
deriving DecidableEq

namespace ConnectionIdSeqSet

def insert (set : ConnectionIdSeqSet) (seq : Nat) : Except Error ConnectionIdSeqSet :=
  if set.inner.length ≥ set.capacity then .error .idLimit
  else .ok { set with inner := set.inner.insert seq }

def remove (set : ConnectionIdSeqSet) (seq : Nat) : ConnectionIdSeqSet :=
  { set with inner := set.inner.erase seq }

end ConnectionIdSeqSet

structure ConnectionIdEntry where
  cid : List UInt8
  seq : Nat
  resetToken : Option (BitVec 128)
  pathId : Option Nat
deriving DecidableEq

def ConnectionIdEntry.linkTo (pathId : Nat) (entry : ConnectionIdEntry) : ConnectionIdEntry :=
  { entry with pathId := some pathId }

structure ConnectionIdVecDeque where
  inner : List ConnectionIdEntry
  capacity : Nat
deriving DecidableEq

namespace ConnectionIdVecDeque

def resize (deque : ConnectionIdVecDeque) (newCapacity : Nat) : ConnectionIdVecDeque :=
  if newCapacity > deque.capacity then { deque with capacity := newCapacity } else deque

def get (deque : ConnectionIdVecDeque) (seq : Nat) : Option ConnectionIdEntry :=
  deque.inner.find? fun entry => entry.seq = seq

def len (deque : ConnectionIdVecDeque) : Nat := deque.inner.length

/-- Changes the entry that `get_mut` finds. -/
def update (change : ConnectionIdEntry → ConnectionIdEntry) (seq : Nat) :
    List ConnectionIdEntry → List ConnectionIdEntry
  | [] => []
  | entry :: rest =>
    if entry.seq = seq then change entry :: rest else entry :: update change seq rest

def insert (deque : ConnectionIdVecDeque) (entry : ConnectionIdEntry) : Except Error ConnectionIdVecDeque :=
  if (deque.get entry.seq).isSome then
    .ok { deque with inner := update (fun _ => entry) entry.seq deque.inner }
  else if deque.inner.length ≥ deque.capacity then .error .idLimit
  else .ok { deque with inner := deque.inner ++ [entry] }

def clearAndInsert (deque : ConnectionIdVecDeque) (entry : ConnectionIdEntry) : ConnectionIdVecDeque :=
  { deque with inner := [entry] }

def remove (deque : ConnectionIdVecDeque) (seq : Nat) :
    Except Error (Option ConnectionIdEntry × ConnectionIdVecDeque) :=
  if deque.inner.length ≤ 1 then .error .outOfIdentifiers
  else .ok (deque.get seq, { deque with inner := deque.inner.eraseP fun entry => entry.seq = seq })

end ConnectionIdVecDeque

structure ConnectionIdentifiers where
  dcids : ConnectionIdVecDeque
  scids : ConnectionIdVecDeque
  advertiseNewScidSeqs : List Nat
  retireDcidSeqs : ConnectionIdSeqSet
  retiredScids : List (List UInt8)
  largestPeerRetirePriorTo : Nat
  largestDestinationSeq : Nat
  nextScidSeq : Nat
  retirePriorTo : Nat
  sourceConnIdLimit : Nat
  zeroLengthScid : Bool
  zeroLengthDcid : Bool
deriving DecidableEq

namespace ConnectionIdentifiers

abbrev Action := EStateM Error ConnectionIdentifiers

/-- The product in the capacity of the retired set wraps around without overflow
checks, and panics with them. -/
def new (destinationConnIdLimit : Nat) (initialScid : List UInt8) (initialPathId : Nat)
    (resetToken : Option (BitVec 128)) : ConnectionIdentifiers :=
  let destinationConnIdLimit := if destinationConnIdLimit < 2 then 2 else destinationConnIdLimit
  let sourceConnIdLimit := 2
  let value := destinationConnIdLimit * retiredConnIdLimitMultiplier % 2 ^ 64
  { scids := ⟨[⟨initialScid, 0, resetToken, some initialPathId⟩], 2 * sourceConnIdLimit - 1⟩
    dcids := ⟨[⟨[], 0, none, some initialPathId⟩], destinationConnIdLimit⟩
    advertiseNewScidSeqs := []
    retireDcidSeqs := ⟨[], min usizeMax value⟩
    retiredScids := []
    largestPeerRetirePriorTo := 0
    largestDestinationSeq := 0
    nextScidSeq := 1
    retirePriorTo := 0
    sourceConnIdLimit := sourceConnIdLimit
    zeroLengthScid := initialScid.isEmpty
    zeroLengthDcid := false }

def setSourceConnIdLimit (v : Nat) (ids : ConnectionIdentifiers) : ConnectionIdentifiers :=
  let v := min v (usizeMax / 2)
  if v ≥ 2 then { ids with sourceConnIdLimit := v, scids := ids.scids.resize (2 * v - 1) } else ids

/-- The least sequence number of a source identifier that was not asked to be retired. -/
def lowestUsableScidSeq (ids : ConnectionIdentifiers) : Option Nat :=
  ((ids.scids.inner.map (·.seq)).filter fun seq => seq ≥ ids.retirePriorTo).min?

def markAdvertiseNewScidSeq (scidSeq : Nat) (advertise : Bool) (ids : ConnectionIdentifiers) : ConnectionIdentifiers :=
  if advertise then { ids with advertiseNewScidSeqs := ids.advertiseNewScidSeqs ++ [scidSeq] }
  else { ids with advertiseNewScidSeqs := ids.advertiseNewScidSeqs.erase scidSeq }

/-- The part of `new_scid` that asks the peer to retire an identifier. -/
def makeRoom (retireIfNeeded : Bool) : Action Unit := fun ids =>
  if ids.scids.len ≥ ids.sourceConnIdLimit then
    if retireIfNeeded then
      match ids.lowestUsableScidSeq with
      | some lowest => .ok () { ids with retirePriorTo := lowest + 1 }
      | none => .error .invalidState ids
    else .error .idLimit ids
  else .ok () ids

/-- The part of `new_scid` that stores the identifier. -/
def addScid (cid : List UInt8) (resetToken : Option (BitVec 128)) (advertise : Bool)
    (pathId : Option Nat) : Action Nat := fun ids =>
  let seq := ids.nextScidSeq
  if resetToken.isNone ∧ seq ≠ 0 then .error .invalidState ids
  else
    match ids.scids.inner.find? fun entry => entry.cid = cid with
    | some entry => if entry.resetToken ≠ resetToken then .error .invalidState ids else .ok entry.seq ids
    | none =>
      match ids.scids.insert ⟨cid, seq, resetToken, pathId⟩ with
      | .error reason => .error reason ids
      | .ok scids =>
        .ok seq (markAdvertiseNewScidSeq seq advertise { ids with scids, nextScidSeq := seq + 1 })

def newScid (cid : List UInt8) (resetToken : Option (BitVec 128)) (advertise : Bool)
    (pathId : Option Nat) (retireIfNeeded : Bool) : Action Nat := do
  if (← get).zeroLengthScid then throw .invalidState
  else
    makeRoom retireIfNeeded
    addScid cid resetToken advertise pathId

def setInitialDcid (cid : List UInt8) (resetToken : Option (BitVec 128)) (pathId : Option Nat)
    (ids : ConnectionIdentifiers) : ConnectionIdentifiers :=
  { ids with
    zeroLengthDcid := cid.isEmpty
    dcids := ids.dcids.clearAndInsert ⟨cid, 0, resetToken, pathId⟩ }

def markRetireDcidSeq (dcidSeq : Nat) (retire : Bool) : Action Unit := fun ids =>
  if retire then
    match ids.retireDcidSeqs.insert dcidSeq with
    | .error reason => .error reason ids
    | .ok retireDcidSeqs => .ok () { ids with retireDcidSeqs }
  else .ok () { ids with retireDcidSeqs := ids.retireDcidSeqs.remove dcidSeq }

/-- What the loop of `new_dcid` leaves: the retired set, the retired pairs, and the
error that ended it. -/
structure Drained where
  retired : ConnectionIdSeqSet
  retiredPathIds : List (Nat × Nat)
  failure : Option Error

/-- The loop over the entries that `drain` takes out. It stops at the first one that
the retired set has no room for, and `drain` takes out the others all the same. -/
def drain (retired : ConnectionIdSeqSet) (retiredPathIds : List (Nat × Nat)) : List ConnectionIdEntry → Drained
  | [] => ⟨retired, retiredPathIds, none⟩
  | entry :: rest =>
    let retiredPathIds := match entry.pathId with
      | some pid => retiredPathIds ++ [(entry.seq, pid)]
      | none => retiredPathIds
    match retired.insert entry.seq with
    | .error reason => ⟨retired, retiredPathIds, some reason⟩
    | .ok retired => drain retired retiredPathIds rest

/-- The part of `new_dcid` for a larger Retire Prior To. `wrap` is the place at which
the ring buffer of the queue wraps around. -/
def retireDcids (wrap retirePriorTo : Nat) (retiredPathIds : List (Nat × Nat))
    (ids : ConnectionIdentifiers) : Drained × ConnectionIdentifiers :=
  let index := ringPartitionPoint (fun entry => entry.seq < retirePriorTo) wrap ids.dcids.inner
  let drained := drain ids.retireDcidSeqs retiredPathIds (ids.dcids.inner.take index)
  (drained, { ids with
      dcids := { ids.dcids with inner := ids.dcids.inner.drop index }
      retireDcidSeqs := drained.retired
      largestPeerRetirePriorTo := retirePriorTo })

/-- The part of `new_dcid` that stores the identifier. -/
def addDcid (entry : ConnectionIdEntry) (drained : Drained) (ids : ConnectionIdentifiers) :
    EStateM.Result Error (ConnectionIdentifiers × List (Nat × Nat)) Unit :=
  match ids.dcids.insert entry with
  | .error reason => .error reason (ids, drained.retiredPathIds)
  | .ok dcids =>
    match drained.failure with
    | some reason => .error reason ({ ids with dcids }, drained.retiredPathIds)
    | none => .ok () ({ ids with dcids }, drained.retiredPathIds)

def newDcid (cid : List UInt8) (seq : Nat) (resetToken : BitVec 128) (retirePriorTo wrap : Nat) :
    EStateM Error (ConnectionIdentifiers × List (Nat × Nat)) Unit := fun (ids, retiredPathIds) =>
  if ids.zeroLengthDcid then .error .invalidState (ids, retiredPathIds)
  else
    match ids.dcids.inner.find? fun entry => entry.cid = cid ∨ entry.seq = seq with
    | some entry =>
      if entry.cid ≠ cid ∨ entry.seq ≠ seq ∨ entry.resetToken ≠ some resetToken then
        .error .invalidFrame (ids, retiredPathIds)
      else .ok () (ids, retiredPathIds)
    | none =>
      if retirePriorTo > seq then .error .invalidFrame (ids, retiredPathIds)
      else if seq < ids.largestPeerRetirePriorTo then
        match markRetireDcidSeq seq true ids with
        | .error reason ids => .error reason (ids, retiredPathIds)
        | .ok _ ids => .ok () (ids, retiredPathIds)
      else
        let ids := { ids with largestDestinationSeq := max ids.largestDestinationSeq seq }
        let newEntry : ConnectionIdEntry := ⟨cid, seq, some resetToken, none⟩
        if retirePriorTo > ids.largestPeerRetirePriorTo then
          if newEntry.seq < retirePriorTo then .error .outOfIdentifiers (ids, retiredPathIds)
          else
            let (drained, ids) := retireDcids wrap retirePriorTo retiredPathIds ids
            addDcid newEntry drained ids
        else addDcid newEntry ⟨ids.retireDcidSeqs, retiredPathIds, none⟩ ids

def retireScid (seq : Nat) (pktDcid : List UInt8) : Action (Option Nat) := fun ids =>
  if seq ≥ ids.nextScidSeq then .error .invalidState ids
  else
    match ids.scids.remove seq with
    | .error reason => .error reason ids
    | .ok (none, scids) => .ok none { ids with scids }
    | .ok (some entry, scids) =>
      let ids := { ids with scids }
      if entry.cid = pktDcid then .error .invalidState ids
      else
        let ids := { ids with retiredScids := ids.retiredScids ++ [entry.cid] }
        match ids.lowestUsableScidSeq with
        | none => .error .invalidState ids
        | some lowest => .ok entry.pathId { ids with retirePriorTo := lowest }

def retireDcid (seq : Nat) : Action (Option Nat) := fun ids =>
  if ids.zeroLengthDcid then .error .invalidState ids
  else
    match ids.dcids.remove seq with
    | .error reason => .error reason ids
    | .ok (none, dcids) => .error .invalidState { ids with dcids }
    | .ok (some entry, dcids) =>
      match markRetireDcidSeq seq true { ids with dcids } with
      | .error reason ids => .error reason ids
      | .ok _ ids => .ok entry.pathId ids

def linkDcidToPathId (dcidSeq pathId : Nat) : Action Unit := fun ids =>
  if (ids.dcids.get dcidSeq).isSome then
    .ok () { ids with dcids := { ids.dcids with
      inner := ConnectionIdVecDeque.update (·.linkTo pathId) dcidSeq ids.dcids.inner } }
  else .error .invalidState ids

def linkScidToPathId (scidSeq pathId : Nat) : Action Unit := fun ids =>
  if (ids.scids.get scidSeq).isSome then
    .ok () { ids with scids := { ids.scids with
      inner := ConnectionIdVecDeque.update (·.linkTo pathId) scidSeq ids.scids.inner } }
  else .error .invalidState ids

def lowestAvailableDcidSeq (ids : ConnectionIdentifiers) : Option Nat :=
  ((ids.dcids.inner.filter fun entry => entry.pathId.isNone).map (·.seq)).min?

/-- The sequence number of a source identifier, and the path that is recorded for it. -/
def findScidSeq (scid : List UInt8) (ids : ConnectionIdentifiers) : Option (Nat × Option Nat) :=
  (ids.scids.inner.find? fun entry => entry.cid = scid).map fun entry => (entry.seq, entry.pathId)

def nextAdvertiseNewScidSeq (ids : ConnectionIdentifiers) : Option Nat := ids.advertiseNewScidSeqs.head?

def toBeBytes (token : BitVec 128) : Vector UInt8 16 :=
  ⟨(bigEndian 16 token.toNat).toArray, bigEndian_length 16 token.toNat⟩

def getNewConnectionIdFrameFor (seqNum : Nat) (ids : ConnectionIdentifiers) : Except Error Frame :=
  match ids.scids.get seqNum with
  | none => .error .invalidState
  | some entry =>
    match entry.resetToken with
    | none => .error .invalidState
    | some token => .ok (.newConnectionId seqNum ids.retirePriorTo entry.cid (toBeBytes token))

end ConnectionIdentifiers

end Quiche
