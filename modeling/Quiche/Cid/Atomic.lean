import Quiche.Cid.Link

namespace Quiche.ConnectionIdentifiers

open Data

variable {ids next : ConnectionIdentifiers} {cid : List UInt8} {resetToken : Option (BitVec 128)} {advertise : Bool}
  {pathId : Option Nat} {retireIfNeeded : Bool} {lowest : Nat}

def usableScids (ids : ConnectionIdentifiers) : List Nat := ids.activeScids.filter fun seq => seq ≥ ids.retirePriorTo

/-- Sequence numbers are given out once, and no identifier is stored twice. -/
structure Unique (ids : ConnectionIdentifiers) : Prop where
  started : 1 ≤ ids.nextScidSeq
  issued : ∀ seq ∈ ids.activeScids, seq < ids.nextScidSeq
  seqs : ids.activeScids.Nodup
  cids : (ids.scids.inner.map (·.cid)).Nodup

/-- `new_scid` gives an error for the identifier once room was made for it. -/
def Refuses (ids : ConnectionIdentifiers) (cid : List UInt8) (resetToken : Option (BitVec 128)) : Prop :=
  resetToken = none ∨ match ids.scids.inner.find? fun entry => entry.cid = cid with
    | some entry => entry.resetToken ≠ resetToken
    | none => ids.scids.capacity ≤ ids.scids.len

section Spec

def store (ids : ConnectionIdentifiers) (cid : List UInt8) (resetToken : Option (BitVec 128)) (advertise : Bool)
    (pathId : Option Nat) : ConnectionIdentifiers := markAdvertiseNewScidSeq ids.nextScidSeq advertise { ids with
    scids := { ids.scids with inner := ids.scids.inner ++ [⟨cid, ids.nextScidSeq, resetToken, pathId⟩] }
    nextScidSeq := ids.nextScidSeq + 1 }

theorem addScid_spec (unique : ids.Unique) (cid : List UInt8) (resetToken : Option (BitVec 128)) (advertise : Bool)
    (pathId : Option Nat) :
    (ids.Refuses cid resetToken ∧ ∃ error, addScid cid resetToken advertise pathId ids = .error error ids) ∨
      ¬ ids.Refuses cid resetToken ∧ ((∃ seq, addScid cid resetToken advertise pathId ids = .ok seq ids) ∨
          (∀ entry ∈ ids.scids.inner, entry.cid ≠ cid) ∧ addScid cid resetToken advertise pathId ids =
              .ok ids.nextScidSeq (ids.store cid resetToken advertise pathId)) := by
  have started : ids.nextScidSeq ≠ 0 := Nat.ne_of_gt unique.started
  rw [addScid, Refuses]
  cases resetToken with
  | none => exact .inl ⟨.inl rfl, .invalidState, if_pos ⟨rfl, started⟩⟩
  | some token =>
    rw [if_neg (fun both => by cases both.1)]
    cases found : ids.scids.inner.find? fun entry => entry.cid = cid with
    | some entry =>
      by_cases same : entry.resetToken = some token
      · refine .inr ⟨?_, .inl ⟨entry.seq, if_neg (not_not_intro same)⟩⟩
        rintro (impossible | differs)
        · cases impossible
        · exact differs same
      · exact .inl ⟨.inr same, .invalidState, if_pos same⟩
    | none =>
      have absent : ∀ entry ∈ ids.scids.inner, entry.cid ≠ cid := by simpa using found
      have fresh : ids.scids.get ids.nextScidSeq = none := by
        apply List.find?_eq_none.mpr
        intro entry member
        have below := unique.issued entry.seq (List.mem_map_of_mem member)
        simpa using Nat.ne_of_lt below
      dsimp only
      rw [ConnectionIdVecDeque.insert, fresh, Option.isSome_none, if_neg Bool.false_ne_true]
      by_cases full : ids.scids.inner.length ≥ ids.scids.capacity
      · rw [if_pos full]
        exact .inl ⟨.inr full, .idLimit, rfl⟩
      · rw [if_neg full]
        refine .inr ⟨?_, .inr ⟨absent, rfl⟩⟩
        rintro (impossible | limit)
        · cases impossible
        · exact full limit

theorem lowestUsableScidSeq_le (found : ids.lowestUsableScidSeq = some lowest) :
    lowest ∈ ids.usableScids ∧ ids.retirePriorTo ≤ lowest ∧ ∀ seq ∈ ids.usableScids, lowest ≤ seq := by
  rw [lowestUsableScidSeq, List.min?_eq_some_iff] at found
  obtain ⟨member, least⟩ := found
  refine ⟨member, ?_, least⟩
  simpa using (List.mem_filter.mp member).2

/-- How `new_scid` comes to store an identifier: with room for it, or after it has asked for the
retirement of another. -/
inductive NewScid (ids : ConnectionIdentifiers) (cid : List UInt8) (resetToken : Option (BitVec 128)) (advertise : Bool)
    (pathId : Option Nat) (retireIfNeeded : Bool) : EStateM.Result Error ConnectionIdentifiers Nat → Prop where
  | failed (error : Error)
      (early : ¬ (ids.zeroLengthScid = false ∧ ids.sourceConnIdLimit ≤ ids.scids.len ∧ retireIfNeeded = true ∧
        ids.lowestUsableScidSeq.isSome)) :
      NewScid ids cid resetToken advertise pathId retireIfNeeded (.error error ids)
  | room (few : ids.scids.len < ids.sourceConnIdLimit) :
      NewScid ids cid resetToken advertise pathId retireIfNeeded (addScid cid resetToken advertise pathId ids)
  | retired (lowest : Nat) (active : ids.zeroLengthScid = false) (full : ids.sourceConnIdLimit ≤ ids.scids.len)
      (retires : retireIfNeeded = true) (found : ids.lowestUsableScidSeq = some lowest) :
      NewScid ids cid resetToken advertise pathId retireIfNeeded
        (addScid cid resetToken advertise pathId { ids with retirePriorTo := lowest + 1 })

theorem newScid_cases (ids : ConnectionIdentifiers) (cid : List UInt8) (resetToken : Option (BitVec 128))
    (advertise : Bool) (pathId : Option Nat) (retireIfNeeded : Bool) :
    NewScid ids cid resetToken advertise pathId retireIfNeeded
      (newScid cid resetToken advertise pathId retireIfNeeded ids) := by
  show NewScid ids cid resetToken advertise pathId retireIfNeeded ((if ids.zeroLengthScid then throw .invalidState
    else do
      makeRoom retireIfNeeded
      addScid cid resetToken advertise pathId : Action Nat) ids)
  by_cases zeroLength : ids.zeroLengthScid = true
  · rw [if_pos zeroLength]
    exact .failed .invalidState fun both => by simp [zeroLength] at both
  rw [if_neg zeroLength]
  by_cases full : ids.scids.len ≥ ids.sourceConnIdLimit
  · cases retires : retireIfNeeded with
    | false =>
      have failed : makeRoom false ids = .error .idLimit ids := by
        rw [makeRoom, if_pos full, if_neg Bool.false_ne_true]
      rw [bind_error failed]
      exact .failed .idLimit fun both => by cases both.2.2.1
    | true =>
      cases found : ids.lowestUsableScidSeq with
      | none =>
        have failed : makeRoom true ids = .error .invalidState ids := by
          rw [makeRoom, if_pos full, if_pos rfl, found]
        rw [bind_error failed]
        exact .failed .invalidState fun both => by simp [found] at both
      | some lowest =>
        have made : makeRoom true ids = .ok () { ids with retirePriorTo := lowest + 1 } := by
          rw [makeRoom, if_pos full, if_pos rfl, found]
        rw [bind_ok made]
        exact .retired lowest (Bool.eq_false_iff.mpr zeroLength) full rfl found
  · have made : makeRoom retireIfNeeded ids = .ok () ids := by rw [makeRoom, if_neg full]
    rw [bind_ok made]
    exact .room (Nat.not_le.mp full)

end Spec

section Failure

/-- What `new_scid` leaves alone when it fails. -/
structure Untouched (next ids : ConnectionIdentifiers) : Prop where
  scids : next.scids = ids.scids
  retirePriorTo : next.retirePriorTo = ids.retirePriorTo
  nextScidSeq : next.nextScidSeq = ids.nextScidSeq
  advertise : next.advertiseNewScidSeqs = ids.advertiseNewScidSeqs

/-- The number to retire prior to is raised to make room for an identifier that is then refused. -/
def RetiresForNothing (ids : ConnectionIdentifiers) (cid : List UInt8) (resetToken : Option (BitVec 128))
    (retireIfNeeded : Bool) : Prop :=
  ids.zeroLengthScid = false ∧ ids.sourceConnIdLimit ≤ ids.scids.len ∧ retireIfNeeded = true ∧
    ids.lowestUsableScidSeq.isSome ∧ ids.Refuses cid resetToken

theorem Unique.raise (unique : ids.Unique) (retirePriorTo : Nat) : Unique { ids with retirePriorTo } :=
  ⟨unique.started, unique.issued, unique.seqs, unique.cids⟩

theorem Unique.newScid_fails (unique : ids.Unique) (cid : List UInt8) (resetToken : Option (BitVec 128))
    (advertise : Bool) (pathId : Option Nat) (retireIfNeeded : Bool) :
    (∀ error next, newScid cid resetToken advertise pathId retireIfNeeded ids = .error error next → Untouched next ids) ↔
      ¬ ids.RetiresForNothing cid resetToken retireIfNeeded := by
  have outcome := newScid_cases ids cid resetToken advertise pathId retireIfNeeded
  generalize newScid cid resetToken advertise pathId retireIfNeeded ids = result at outcome
  cases outcome with
  | failed error early =>
    refine iff_of_true ?_ fun retires => early ⟨retires.1, retires.2.1, retires.2.2.1, retires.2.2.2.1⟩
    intro other next same
    cases same
    exact ⟨rfl, rfl, rfl, rfl⟩
  | room few =>
    refine iff_of_true ?_ fun retires => absurd retires.2.1 (Nat.not_le.mpr few)
    intro error next failed
    rcases addScid_spec unique cid resetToken advertise pathId with ⟨_, other, same⟩ | ⟨_, ⟨seq, same⟩ | ⟨_, same⟩⟩
    · cases same.symm.trans failed
      exact ⟨rfl, rfl, rfl, rfl⟩
    · cases same.symm.trans failed
    · cases same.symm.trans failed
  | retired lowest active full retires found =>
    rcases addScid_spec (unique.raise (lowest + 1)) cid resetToken advertise pathId with
      ⟨refused, error, same⟩ | ⟨accepted, ⟨seq, same⟩ | ⟨_, same⟩⟩
    · refine iff_of_false ?_ (not_not_intro ⟨active, full, retires, by rw [found]; rfl, refused⟩)
      intro untouched
      have kept := (untouched error _ same).retirePriorTo
      have order := (lowestUsableScidSeq_le found).2.1
      simp only at kept
      omega
    · refine iff_of_true ?_ fun other => accepted other.2.2.2.2
      intro error next failed
      cases same.symm.trans failed
    · refine iff_of_true ?_ fun other => accepted other.2.2.2.2
      intro error next failed
      cases same.symm.trans failed

end Failure

section Shrinks

/-- No source identifier comes in, and none that the peer was asked to retire becomes usable again. -/
structure Shrinks (next ids : ConnectionIdentifiers) : Prop where
  seqs : List.Sublist next.activeScids ids.activeScids
  cids : List.Sublist (next.scids.inner.map (·.cid)) (ids.scids.inner.map (·.cid))
  retirePriorTo : ids.retirePriorTo ≤ next.retirePriorTo
  nextScidSeq : next.nextScidSeq = ids.nextScidSeq
  limit : next.sourceConnIdLimit = ids.sourceConnIdLimit

theorem Shrinks.refl (ids : ConnectionIdentifiers) : Shrinks ids ids := ⟨.refl _, .refl _, Nat.le_refl _, rfl, rfl⟩

theorem Shrinks.same (scids : next.scids = ids.scids) (retirePriorTo : next.retirePriorTo = ids.retirePriorTo)
    (nextScidSeq : next.nextScidSeq = ids.nextScidSeq) (limit : next.sourceConnIdLimit = ids.sourceConnIdLimit) :
    Shrinks next ids where
  seqs := by rw [activeScids, activeScids, scids]
  cids := by rw [scids]
  retirePriorTo := Nat.le_of_eq retirePriorTo.symm
  nextScidSeq := nextScidSeq
  limit := limit

theorem Unique.shrinks (unique : ids.Unique) (shrinks : Shrinks next ids) : next.Unique where
  started := by
    rw [shrinks.nextScidSeq]
    exact unique.started
  issued := by
    rw [shrinks.nextScidSeq]
    exact fun seq member => unique.issued seq (shrinks.seqs.subset member)
  seqs := unique.seqs.sublist shrinks.seqs
  cids := unique.cids.sublist shrinks.cids

theorem Shrinks.usable (shrinks : Shrinks next ids) : List.Sublist next.usableScids ids.usableScids := by
  refine (shrinks.seqs.filter _).trans (List.monotone_filter_right _ ?_)
  intro seq usable
  have order := shrinks.retirePriorTo
  simp only [decide_eq_true_eq] at usable ⊢
  omega

theorem retireScid_shrinks (seq : Nat) (pktDcid : List UInt8) (ids : ConnectionIdentifiers) :
    Shrinks (after (retireScid seq pktDcid ids)) ids := by
  rw [retireScid]
  split
  · exact .refl ids
  rw [ConnectionIdVecDeque.remove]
  by_cases last : ids.scids.inner.length ≤ 1
  · rw [if_pos last]
    exact .refl ids
  rw [if_neg last]
  have erased : List.Sublist (ids.scids.inner.eraseP fun entry => entry.seq = seq) ids.scids.inner :=
    List.eraseP_sublist
  have removed (retired : List (List UInt8)) : Shrinks { ids with
      scids := { ids.scids with inner := ids.scids.inner.eraseP fun entry => entry.seq = seq }
      retiredScids := retired } ids := ⟨erased.map _, erased.map _, Nat.le_refl _, rfl, rfl⟩
  cases found : ids.scids.get seq with
  | none => exact removed ids.retiredScids
  | some entry =>
    dsimp only
    split
    · exact removed ids.retiredScids
    · split
      · exact removed _
      · rename_i lowest usable
        exact ⟨erased.map _, erased.map _, (lowestUsableScidSeq_le usable).2.1, rfl, rfl⟩

theorem linkScidToPathId_shrinks (scidSeq pathId : Nat) (ids : ConnectionIdentifiers) :
    Shrinks (after (linkScidToPathId scidSeq pathId ids)) ids := by
  have cids (entries : List ConnectionIdEntry) :
      (ConnectionIdVecDeque.update (·.linkTo pathId) scidSeq entries).map (·.cid) = entries.map (·.cid) := by
    induction entries with
    | nil => rfl
    | cons entry rest ih =>
      rw [ConnectionIdVecDeque.update]
      split
      · rfl
      · rw [List.map_cons, List.map_cons, ih]
  rw [linkScidToPathId]
  split
  · refine ⟨?_, ?_, Nat.le_refl _, rfl, rfl⟩
    · show List.Sublist (List.map _ (ConnectionIdVecDeque.update _ _ _)) _
      rw [seqs_update_linkTo]
      exact .refl _
    · show List.Sublist (List.map _ (ConnectionIdVecDeque.update _ _ _)) _
      rw [cids]
  · exact .same rfl rfl rfl rfl

/-- The source identifiers and what is known about them stay. -/
structure SameScids (next ids : ConnectionIdentifiers) : Prop where
  scids : next.scids = ids.scids
  retirePriorTo : next.retirePriorTo = ids.retirePriorTo
  nextScidSeq : next.nextScidSeq = ids.nextScidSeq
  limit : next.sourceConnIdLimit = ids.sourceConnIdLimit

theorem SameScids.shrinks (same : SameScids next ids) : Shrinks next ids :=
  .same same.scids same.retirePriorTo same.nextScidSeq same.limit

theorem dcidMachine_sameScids {call : DcidCall} (stepped : dcidMachine.step ids call = some next) :
    SameScids next ids := by
  have marked (seq : Nat) (retire : Bool) (ids : ConnectionIdentifiers) :
      SameScids (after (markRetireDcidSeq seq retire ids)) ids := by
    rw [markRetireDcidSeq]
    split
    · split <;> exact ⟨rfl, rfl, rfl, rfl⟩
    · exact ⟨rfl, rfl, rfl, rfl⟩
  cases call with
  | newDcid cid seq resetToken retirePriorTo wrap retiredPathIds =>
    have added (entry : ConnectionIdEntry) (drained : Drained) (middle : ConnectionIdentifiers)
        (same : SameScids middle ids) : SameScids (after (addDcid entry drained middle)).1 ids := by
      rw [addDcid]
      split
      · exact same
      · split <;> exact ⟨same.scids, same.retirePriorTo, same.nextScidSeq, same.limit⟩
    cases stepped
    rcases newDcid_spec cid seq resetToken retirePriorTo wrap ids retiredPathIds with
      ⟨retireDcidSeqs, _, same⟩ | ⟨_, _, called⟩ | ⟨_, _, _, _, called⟩
    · rw [same]
      exact ⟨rfl, rfl, rfl, rfl⟩
    · rw [called]
      exact added _ _ _ ⟨rfl, rfl, rfl, rfl⟩
    · rw [called]
      exact added _ _ _ ⟨rfl, rfl, rfl, rfl⟩
  | retireDcid seq =>
    cases stepped
    rw [retireDcid, ConnectionIdVecDeque.remove]
    split
    · exact ⟨rfl, rfl, rfl, rfl⟩
    by_cases last : ids.dcids.inner.length ≤ 1
    · rw [if_pos last]
      exact ⟨rfl, rfl, rfl, rfl⟩
    rw [if_neg last]
    cases ids.dcids.get seq with
    | none => exact ⟨rfl, rfl, rfl, rfl⟩
    | some entry =>
      have same := marked seq true { ids with
        dcids := { ids.dcids with inner := ids.dcids.inner.eraseP fun entry => entry.seq = seq } }
      dsimp only
      split <;> rename_i called <;> rw [called] at same <;>
        exact ⟨same.scids, same.retirePriorTo, same.nextScidSeq, same.limit⟩
  | linkDcidToPathId dcidSeq pathId =>
    cases stepped
    rw [linkDcidToPathId]
    split <;> exact ⟨rfl, rfl, rfl, rfl⟩
  | markRetireDcidSeq dcidSeq retire =>
    cases stepped
    exact marked dcidSeq retire ids

end Shrinks

section Runs

theorem markAdvertise_frame (seq : Nat) (advertise : Bool) (ids : ConnectionIdentifiers) :
    Shrinks (ids.markAdvertiseNewScidSeq seq advertise) ids := by
  rw [markAdvertiseNewScidSeq]
  split <;> exact .same rfl rfl rfl rfl

/-- The identifier is the newest source identifier, under the next sequence number. -/
structure Stored (next ids : ConnectionIdentifiers) (cid : List UInt8) : Prop where
  seqs : next.activeScids = ids.activeScids ++ [ids.nextScidSeq]
  cids : next.scids.inner.map (·.cid) = ids.scids.inner.map (·.cid) ++ [cid]
  retirePriorTo : next.retirePriorTo = ids.retirePriorTo
  nextScidSeq : next.nextScidSeq = ids.nextScidSeq + 1
  limit : next.sourceConnIdLimit = ids.sourceConnIdLimit

theorem store_stored (ids : ConnectionIdentifiers) (cid : List UInt8) (resetToken : Option (BitVec 128))
    (advertise : Bool) (pathId : Option Nat) : Stored (ids.store cid resetToken advertise pathId) ids cid := by
  rw [store, markAdvertiseNewScidSeq]
  split
  · exact ⟨List.map_append, List.map_append, rfl, rfl, rfl⟩
  · exact ⟨List.map_append, List.map_append, rfl, rfl, rfl⟩

theorem Unique.stored (unique : ids.Unique) (absent : ∀ entry ∈ ids.scids.inner, entry.cid ≠ cid)
    (stored : Stored next ids cid) : next.Unique where
  started := by
    rw [stored.nextScidSeq]
    exact Nat.le_add_left 1 _
  issued := by
    rw [stored.seqs, stored.nextScidSeq]
    intro seq member
    rcases List.mem_append.mp member with old | new
    · exact Nat.lt_succ_of_lt (unique.issued seq old)
    · rw [List.mem_singleton.mp new]
      exact Nat.lt_succ_self _
  seqs := by
    rw [stored.seqs]
    refine List.nodup_append.mpr ⟨unique.seqs, List.pairwise_singleton _ _, ?_⟩
    intro seq old other new
    rw [List.mem_singleton.mp new]
    exact Nat.ne_of_lt (unique.issued seq old)
  cids := by
    rw [stored.cids]
    refine List.nodup_append.mpr ⟨unique.cids, List.pairwise_singleton _ _, ?_⟩
    intro known old other new
    obtain ⟨entry, member, rfl⟩ := List.mem_map.mp old
    rw [List.mem_singleton.mp new]
    exact absent entry member

theorem Stored.usable_le (stored : Stored next ids cid) : next.usableScids.length ≤ ids.usableScids.length + 1 := by
  rw [usableScids, stored.seqs, stored.retirePriorTo, List.filter_append, List.length_append]
  exact Nat.add_le_add_left (List.length_filter_le _ _) _

theorem usable_raised (found : ids.lowestUsableScidSeq = some lowest) :
    (usableScids { ids with retirePriorTo := lowest + 1 }).length < ids.usableScids.length := by
  obtain ⟨member, order, _⟩ := lowestUsableScidSeq_le found
  have shrinks : Shrinks { ids with retirePriorTo := lowest + 1 } ids :=
    ⟨.refl _, .refl _, Nat.le_succ_of_le order, rfl, rfl⟩
  refine Nat.lt_of_le_of_ne shrinks.usable.length_le fun same => ?_
  have equal := shrinks.usable.eq_of_length same
  rw [← equal] at member
  have beyond := (List.mem_filter.mp member).2
  simp only [decide_eq_true_eq] at beyond
  omega

theorem usable_le_len (ids : ConnectionIdentifiers) : ids.usableScids.length ≤ ids.scids.len := by
  refine Nat.le_trans (List.length_filter_le _ _) (Nat.le_of_eq ?_)
  rw [activeScids, List.length_map]
  rfl

/-- No more source identifiers are usable than the peer admits. -/
def Bounded (ids : ConnectionIdentifiers) : Prop := ids.usableScids.length ≤ ids.sourceConnIdLimit

section

variable (unique : ids.Unique) (cid : List UInt8) (resetToken : Option (BitVec 128)) (advertise : Bool)
  (pathId : Option Nat)

include unique

theorem Unique.addScid : (after (addScid cid resetToken advertise pathId ids)).Unique ∧
      (after (addScid cid resetToken advertise pathId ids)).sourceConnIdLimit = ids.sourceConnIdLimit ∧
      (after (addScid cid resetToken advertise pathId ids)).usableScids.length ≤ ids.usableScids.length + 1 := by
  rcases addScid_spec unique cid resetToken advertise pathId with ⟨_, error, same⟩ | ⟨_, ⟨seq, same⟩ | ⟨absent, same⟩⟩
  · rw [same]
    exact ⟨unique, rfl, Nat.le_succ _⟩
  · rw [same]
    exact ⟨unique, rfl, Nat.le_succ _⟩
  · rw [same]
    have stored := store_stored ids cid resetToken advertise pathId
    exact ⟨unique.stored absent stored, stored.limit, stored.usable_le⟩

theorem Unique.newScid (retireIfNeeded : Bool) :
    (after (newScid cid resetToken advertise pathId retireIfNeeded ids)).Unique ∧
      (ids.Bounded → (after (newScid cid resetToken advertise pathId retireIfNeeded ids)).Bounded) := by
  have outcome := newScid_cases ids cid resetToken advertise pathId retireIfNeeded
  generalize ConnectionIdentifiers.newScid cid resetToken advertise pathId retireIfNeeded ids = result at outcome
  simp only [Bounded]
  cases outcome with
  | failed error early => exact ⟨unique, id⟩
  | room few =>
    obtain ⟨kept, limit, usable⟩ := unique.addScid cid resetToken advertise pathId
    have all := usable_le_len ids
    refine ⟨kept, fun _ => ?_⟩
    rw [limit]
    omega
  | retired lowest active full retires found =>
    obtain ⟨kept, limit, usable⟩ := (unique.raise (lowest + 1)).addScid cid resetToken advertise pathId
    have fewer := usable_raised found
    refine ⟨kept, fun bounded => ?_⟩
    rw [limit]
    dsimp only at usable ⊢
    omega

end

inductive IdentifierCall where
  | scid (call : ScidCall)
  | dcid (call : DcidCall)
  | linkScidToPathId (scidSeq pathId : Nat)
  | setInitialDcid (cid : List UInt8) (resetToken : Option (BitVec 128)) (pathId : Option Nat)

def identifierMachine : Machine ConnectionIdentifiers IdentifierCall where
  step ids
    | .scid call => scidMachine.step ids call
    | .dcid call => dcidMachine.step ids call
    | .linkScidToPathId scidSeq pathId => some (after (linkScidToPathId scidSeq pathId ids))
    | .setInitialDcid cid resetToken pathId => some (ids.setInitialDcid cid resetToken pathId)

def newLimit : IdentifierCall → Option Nat
  | .scid (.setSourceConnIdLimit v) => if min v (usizeMax / 2) ≥ 2 then some (min v (usizeMax / 2)) else none
  | _ => none

/-- A new limit is not below the number of identifiers in use. -/
def KeepsLimit (ids : ConnectionIdentifiers) (call : IdentifierCall) : Prop :=
  ∀ limit ∈ newLimit call, ids.usableScids.length ≤ limit

instance (ids : ConnectionIdentifiers) (call : IdentifierCall) : Decidable (ids.KeepsLimit call) :=
  inferInstanceAs (Decidable (∀ limit ∈ newLimit call, _))

theorem setSourceConnIdLimit_frame (v : Nat) (ids : ConnectionIdentifiers) :
    (ids.setSourceConnIdLimit v).scids.inner = ids.scids.inner ∧
      (ids.setSourceConnIdLimit v).retirePriorTo = ids.retirePriorTo ∧
      (ids.setSourceConnIdLimit v).nextScidSeq = ids.nextScidSeq ∧ (ids.setSourceConnIdLimit v).sourceConnIdLimit =
        (newLimit (.scid (.setSourceConnIdLimit v))).getD ids.sourceConnIdLimit := by
  rw [setSourceConnIdLimit, newLimit]
  split
  · refine ⟨?_, rfl, rfl, rfl⟩
    show (ids.scids.resize _).inner = _
    rw [ConnectionIdVecDeque.resize]
    split <;> rfl
  · exact ⟨rfl, rfl, rfl, rfl⟩

theorem keepsLimit_none (unset : newLimit call = none) : ids.KeepsLimit call := by
  intro limit member
  rw [unset] at member
  cases member

theorem Unique.step (unique : ids.Unique) (call : IdentifierCall) :
    ∃ next, identifierMachine.step ids call = some next ∧ next.Unique ∧
      (ids.Bounded → (next.Bounded ↔ ids.KeepsLimit call)) := by
  have shrunk {next : ConnectionIdentifiers} (shrinks : Shrinks next ids) (bounded : ids.Bounded) : next.Bounded := by
    rw [Bounded, shrinks.limit]
    exact Nat.le_trans shrinks.usable.length_le bounded
  cases call with
  | scid call =>
    cases call with
    | newScid cid resetToken advertise pathId retireIfNeeded =>
      obtain ⟨kept, grows⟩ := unique.newScid cid resetToken advertise pathId retireIfNeeded
      exact ⟨_, rfl, kept, fun bounded => iff_of_true (grows bounded) (keepsLimit_none rfl)⟩
    | retireScid seq pktDcid =>
      have shrinks := retireScid_shrinks seq pktDcid ids
      exact ⟨_, rfl, unique.shrinks shrinks, fun bounded => iff_of_true (shrunk shrinks bounded) (keepsLimit_none rfl)⟩
    | setSourceConnIdLimit v =>
      obtain ⟨inner, retirePriorTo, nextScidSeq, limit⟩ := setSourceConnIdLimit_frame v ids
      have seqs : (ids.setSourceConnIdLimit v).activeScids = ids.activeScids := by
        rw [activeScids, inner, activeScids]
      have usable : (ids.setSourceConnIdLimit v).usableScids = ids.usableScids := by
        rw [usableScids, seqs, retirePriorTo, usableScids]
      refine ⟨_, rfl, ⟨?_, ?_, ?_, ?_⟩, fun bounded => ?_⟩
      · rw [nextScidSeq]
        exact unique.started
      · rw [seqs, nextScidSeq]
        exact unique.issued
      · rw [seqs]
        exact unique.seqs
      · rw [inner]
        exact unique.cids
      · rw [Bounded, usable, limit, KeepsLimit]
        cases newLimit (.scid (.setSourceConnIdLimit v)) with
        | none => exact iff_of_true bounded fun _ member => by cases member
        | some limit => simp
    | markAdvertiseNewScidSeq scidSeq advertise =>
      have shrinks := markAdvertise_frame scidSeq advertise ids
      exact ⟨_, rfl, unique.shrinks shrinks, fun bounded => iff_of_true (shrunk shrinks bounded) (keepsLimit_none rfl)⟩
  | dcid call =>
    obtain ⟨next, stepped⟩ : ∃ next, dcidMachine.step ids call = some next := by
      cases call <;> exact ⟨_, rfl⟩
    have shrinks := (dcidMachine_sameScids stepped).shrinks
    exact ⟨next, stepped, unique.shrinks shrinks,
      fun bounded => iff_of_true (shrunk shrinks bounded) (keepsLimit_none rfl)⟩
  | linkScidToPathId scidSeq pathId =>
    have shrinks := linkScidToPathId_shrinks scidSeq pathId ids
    exact ⟨_, rfl, unique.shrinks shrinks, fun bounded => iff_of_true (shrunk shrinks bounded) (keepsLimit_none rfl)⟩
  | setInitialDcid cid resetToken pathId =>
    have shrinks : Shrinks (ids.setInitialDcid cid resetToken pathId) ids := .same rfl rfl rfl rfl
    exact ⟨_, rfl, unique.shrinks shrinks, fun bounded => iff_of_true (shrunk shrinks bounded) (keepsLimit_none rfl)⟩

theorem new_unique (limit : Nat) (scid : List UInt8) (pathId : Nat) (resetToken : Option (BitVec 128)) :
    (new limit scid pathId resetToken).Unique where
  started := Nat.le_refl 1
  issued := by simp [new, activeScids]
  seqs := by simp [new, activeScids]
  cids := by simp [new]

theorem bounded_iff_guarded (unique : ids.Unique) (bounded : ids.Bounded) (calls : List IdentifierCall) :
    (∀ earlier later middle, earlier ++ later = calls → identifierMachine.run ids earlier = some middle →
        middle.Bounded) ↔ identifierMachine.Guarded KeepsLimit ids calls := by
  induction calls generalizing ids with
  | nil =>
    refine iff_of_true ?_ trivial
    intro earlier later middle split reached
    obtain ⟨rfl, rfl⟩ := List.append_eq_nil_iff.mp split
    cases reached
    exact bounded
  | cons call calls ih =>
    obtain ⟨next, stepped, nextUnique, kept⟩ := unique.step call
    have first : identifierMachine.run ids [call] = some next := by
      rw [Machine.run, stepped]
      rfl
    constructor
    · intro every
      have nextBounded := every [call] calls next rfl first
      refine ⟨(kept bounded).mp nextBounded, fun other same => ?_⟩
      cases stepped.symm.trans same
      refine (ih nextUnique nextBounded).mp fun earlier later middle split reached => ?_
      refine every (call :: earlier) later middle (by rw [List.cons_append, split]) ?_
      rw [Machine.run, stepped]
      exact reached
    · rintro ⟨keeps, rest⟩ earlier later middle split reached
      cases earlier with
      | nil =>
        cases reached
        exact bounded
      | cons op ops =>
        obtain ⟨rfl, tail⟩ := List.cons.inj split
        rw [Machine.run, stepped] at reached
        exact (ih nextUnique ((kept bounded).mpr keeps)).mpr (rest next stepped) ops later middle tail reached

/-- Whatever was called, source identifiers and their sequence numbers are all different, and `new_scid`
fails without a trace unless it retires an identifier for one that it refuses. There are never more in
use than the peer admits unless the limit is set below their number. -/
theorem new_scid_atomic_bounded (limit : Nat) (scid : List UInt8) (pathId : Nat) (resetToken : Option (BitVec 128))
    (calls : List IdentifierCall) : ∃ ids, identifierMachine.run (new limit scid pathId resetToken) calls = some ids ∧
      (ids.scids.inner.map (·.seq)).Nodup ∧ (ids.scids.inner.map (·.cid)).Nodup ∧
      (∀ cid resetToken advertise pathId retireIfNeeded,
        (∀ error next, newScid cid resetToken advertise pathId retireIfNeeded ids = .error error next →
            Untouched next ids) ↔ ¬ ids.RetiresForNothing cid resetToken retireIfNeeded) ∧
      ((∀ earlier later middle, earlier ++ later = calls →
          identifierMachine.run (new limit scid pathId resetToken) earlier = some middle → middle.Bounded) ↔
        identifierMachine.Guarded KeepsLimit (new limit scid pathId resetToken) calls) := by
  have started : (new limit scid pathId resetToken).Bounded := Nat.le_trans (usable_le_len _) (Nat.le_succ 1)
  have preserved (state : ConnectionIdentifiers) (call : IdentifierCall) (unique : state.Unique) :
      ∃ next, identifierMachine.step state call = some next ∧ next.Unique := by
    obtain ⟨next, stepped, kept, _⟩ := unique.step call
    exact ⟨next, stepped, kept⟩
  have fresh := new_unique limit scid pathId resetToken
  obtain ⟨ids, reached, unique⟩ := identifierMachine.run_total preserved fresh calls
  exact ⟨ids, reached, unique.seqs, unique.cids, unique.newScid_fails, bounded_iff_guarded fresh started calls⟩

/-- Two identifiers of two are in use, and one without a token is to replace the first: the call fails, and
has asked for the retirement of the first all the same. -/
theorem retires_for_nothing : ∃ ids error next,
    identifierMachine.run (new 2 [9] 0 none) [.scid (.newScid [1] (some 7) true none false)] = some ids ∧
      newScid [2] none true none true ids = .error error next ∧ next.retirePriorTo ≠ ids.retirePriorTo :=
  ⟨_, .invalidState, _, rfl, rfl, by decide⟩

end Runs

variable {seq : Nat} {pktDcid : List UInt8}

/-- What a call can do to the sequence numbers of the source identifiers: it takes some out, but not all,
and only brings in new ones. -/
structure Evolves (next ids : ConnectionIdentifiers) : Prop where
  nextScidSeq : ids.nextScidSeq ≤ next.nextScidSeq
  seqs : ∀ seq ∈ next.activeScids, seq ∈ ids.activeScids ∨ ids.nextScidSeq ≤ seq
  kept : 0 < ids.scids.len → 0 < next.scids.len

theorem Shrinks.evolves (shrinks : Shrinks next ids) (kept : 0 < ids.scids.len → 0 < next.scids.len) :
    Evolves next ids where
  nextScidSeq := Nat.le_of_eq shrinks.nextScidSeq.symm
  seqs := fun _ member => .inl (shrinks.seqs.subset member)
  kept := kept

theorem Shrinks.evolves_of_eq (shrinks : Shrinks next ids) (same : next.activeScids = ids.activeScids) :
    Evolves next ids := by
  refine shrinks.evolves fun nonempty => ?_
  have length := congrArg List.length same
  rw [activeScids, activeScids, List.length_map, List.length_map] at length
  exact Nat.lt_of_lt_of_eq nonempty length.symm

theorem Stored.evolves (stored : Stored next ids cid) : Evolves next ids where
  nextScidSeq := by
    rw [stored.nextScidSeq]
    exact Nat.le_succ _
  seqs := by
    rw [stored.seqs]
    intro seq member
    rcases List.mem_append.mp member with old | new
    · exact .inl old
    · exact .inr (Nat.le_of_eq (List.mem_singleton.mp new).symm)
  kept := by
    have length := congrArg List.length stored.seqs
    rw [activeScids, activeScids, List.length_map, List.length_append, List.length_map] at length
    intro nonempty
    exact Nat.lt_of_lt_of_eq (Nat.lt_add_right 1 nonempty) length.symm

section

variable (unique : ids.Unique) (cid : List UInt8) (resetToken : Option (BitVec 128)) (advertise : Bool)
  (pathId : Option Nat)

include unique

theorem Unique.addScid_evolves :
    Evolves (after (ConnectionIdentifiers.addScid cid resetToken advertise pathId ids)) ids := by
  rcases addScid_spec unique cid resetToken advertise pathId with ⟨_, error, same⟩ | ⟨_, ⟨seq, same⟩ | ⟨_, same⟩⟩
  · rw [same]
    exact (Shrinks.refl ids).evolves id
  · rw [same]
    exact (Shrinks.refl ids).evolves id
  · rw [same]
    exact (store_stored ids cid resetToken advertise pathId).evolves

theorem Unique.newScid_evolves (retireIfNeeded : Bool) :
    Evolves (after (ConnectionIdentifiers.newScid cid resetToken advertise pathId retireIfNeeded ids)) ids := by
  have outcome := newScid_cases ids cid resetToken advertise pathId retireIfNeeded
  generalize ConnectionIdentifiers.newScid cid resetToken advertise pathId retireIfNeeded ids = result at outcome
  cases outcome with
  | failed error early => exact (Shrinks.refl ids).evolves id
  | room few => exact unique.addScid_evolves cid resetToken advertise pathId
  | retired lowest active full retires found =>
    have evolves := (unique.raise (lowest + 1)).addScid_evolves cid resetToken advertise pathId
    exact ⟨evolves.nextScidSeq, evolves.seqs, evolves.kept⟩

end

theorem retireScid_evolves (seq : Nat) (pktDcid : List UInt8) (ids : ConnectionIdentifiers) :
    Evolves (after (retireScid seq pktDcid ids)) ids := by
  have shrinks := retireScid_shrinks seq pktDcid ids
  obtain ⟨_, same | ⟨entry, takesOut⟩⟩ := retireScid_spec seq pktDcid ids
  · exact shrinks.evolves_of_eq same
  · refine shrinks.evolves fun _ => ?_
    have several := takesOut.several
    rw [ConnectionIdVecDeque.len, takesOut.left, remainingScids, List.length_eraseP]
    rw [ConnectionIdVecDeque.len] at several
    split <;> omega

theorem Unique.step_evolves (unique : ids.Unique) {call : IdentifierCall}
    (stepped : identifierMachine.step ids call = some next) : Evolves next ids := by
  cases call with
  | scid call =>
    cases call with
    | newScid cid resetToken advertise pathId retireIfNeeded =>
      cases stepped
      exact unique.newScid_evolves cid resetToken advertise pathId retireIfNeeded
    | retireScid seq pktDcid =>
      cases stepped
      exact retireScid_evolves seq pktDcid ids
    | setSourceConnIdLimit v =>
      cases stepped
      obtain ⟨inner, _, nextScidSeq, _⟩ := setSourceConnIdLimit_frame v ids
      refine ⟨Nat.le_of_eq nextScidSeq.symm, ?_, ?_⟩
      · rw [activeScids, inner]
        exact fun _ member => .inl member
      · rw [ConnectionIdVecDeque.len, ConnectionIdVecDeque.len, inner]
        exact id
    | markAdvertiseNewScidSeq scidSeq advertise =>
      cases stepped
      have shrinks := markAdvertise_frame scidSeq advertise ids
      refine shrinks.evolves_of_eq ?_
      rw [markAdvertiseNewScidSeq]
      split <;> rfl
  | dcid call =>
    have same := dcidMachine_sameScids stepped
    exact same.shrinks.evolves_of_eq (by rw [activeScids, same.scids, activeScids])
  | linkScidToPathId scidSeq pathId =>
    cases stepped
    refine (linkScidToPathId_shrinks scidSeq pathId ids).evolves_of_eq ?_
    rw [linkScidToPathId]
    split
    · exact seqs_update_linkTo ..
    · rfl
  | setInitialDcid cid resetToken pathId =>
    cases stepped
    have shrinks : Shrinks (ids.setInitialDcid cid resetToken pathId) ids := .same rfl rfl rfl rfl
    exact shrinks.evolves_of_eq rfl

/-- The number was given to a source identifier that is no longer stored. -/
def Gone (seq : Nat) (ids : ConnectionIdentifiers) : Prop := seq < ids.nextScidSeq ∧ seq ∉ ids.activeScids

theorem Gone.evolves (gone : ids.Gone seq) (evolves : Evolves next ids) : next.Gone seq := by
  refine ⟨Nat.lt_of_lt_of_le gone.1 evolves.nextScidSeq, fun member => ?_⟩
  rcases evolves.seqs seq member with old | fresh
  · exact gone.2 old
  · exact absurd gone.1 (Nat.not_lt.mpr fresh)

theorem Unique.remaining (unique : ids.Unique) (seq : Nat) : seq ∉ (ids.remainingScids seq).map (·.seq) := by
  have erased : (ids.remainingScids seq).map (·.seq) = ids.activeScids.erase seq := by
    have matches_ : (fun entry : ConnectionIdEntry => decide (entry.seq = seq)) = (seq == ·) ∘ (·.seq) := by
      funext entry
      rw [Bool.eq_iff_iff, decide_eq_true_iff, Function.comp, beq_iff_eq]
      exact eq_comm
    rw [List.erase_eq_eraseP, activeScids, List.eraseP_map, remainingScids, matches_]
  rw [erased]
  exact unique.seqs.not_mem_erase

theorem Unique.retireScid_gone (unique : ids.Unique) {pid : Option Nat}
    (retired : retireScid seq pktDcid ids = .ok pid next) : next.Gone seq := by
  have without := unique.remaining seq
  rw [retireScid] at retired
  split at retired
  · contradiction
  rename_i issued
  rw [ConnectionIdVecDeque.remove] at retired
  by_cases last : ids.scids.inner.length ≤ 1
  · rw [if_pos last] at retired
    contradiction
  rw [if_neg last] at retired
  cases found : ids.scids.get seq with
  | none =>
    rw [found] at retired
    cases retired
    exact ⟨Nat.not_le.mp issued, without⟩
  | some entry =>
    rw [found] at retired
    dsimp only at retired
    split at retired
    · contradiction
    · split at retired
      · contradiction
      · cases retired
        exact ⟨Nat.not_le.mp issued, without⟩

theorem Gone.retireScid_eq (gone : ids.Gone seq) (dcid : List UInt8) :
    retireScid seq dcid ids = if ids.scids.len ≤ 1 then .error .outOfIdentifiers ids else .ok none ids := by
  have absent : ids.scids.get seq = none := by
    rw [← Option.not_isSome_iff_eq_none, get_scid_isSome]
    exact gone.2
  have kept : ids.scids.inner.eraseP (fun entry => entry.seq = seq) = ids.scids.inner :=
    List.eraseP_of_forall_not (List.find?_eq_none.mp absent)
  rw [retireScid, if_neg (Nat.not_le.mpr gone.1), ConnectionIdVecDeque.remove, absent, kept, ConnectionIdVecDeque.len]
  by_cases last : ids.scids.inner.length ≤ 1
  · rw [if_pos last, if_pos last]
  · rw [if_neg last, if_neg last]

/-- Once a source identifier is retired, asking for that again changes nothing, and is only refused where a
single identifier is left; and some identifier is always left. -/
theorem retire_scid_idempotent (limit : Nat) (scid : List UInt8) (pathId : Nat) (resetToken : Option (BitVec 128))
    (calls : List IdentifierCall) :
    ∃ ids, identifierMachine.run (new limit scid pathId resetToken) calls = some ids ∧ 0 < ids.scids.len ∧
      ∀ seq pktDcid pid retired more later, retireScid seq pktDcid ids = .ok pid retired →
        identifierMachine.run retired more = some later → ∀ dcid, retireScid seq dcid later =
          if later.scids.len ≤ 1 then .error .outOfIdentifiers later else .ok none later := by
  have preserved (state : ConnectionIdentifiers) (call : IdentifierCall) (holds : state.Unique ∧ 0 < state.scids.len) :
      ∃ next, identifierMachine.step state call = some next ∧ next.Unique ∧ 0 < next.scids.len := by
    obtain ⟨next, stepped, kept, _⟩ := holds.1.step call
    exact ⟨next, stepped, kept, (holds.1.step_evolves stepped).kept holds.2⟩
  have fresh := new_unique limit scid pathId resetToken
  obtain ⟨ids, reached, unique, nonempty⟩ := identifierMachine.run_total preserved ⟨fresh, Nat.one_pos⟩ calls
  refine ⟨ids, reached, nonempty, fun seq pktDcid pid retired more later called ran dcid => ?_⟩
  have uniqueRetired : retired.Unique := by
    have shrinks := retireScid_shrinks seq pktDcid ids
    rw [called] at shrinks
    exact unique.shrinks shrinks
  have goneStep (state : ConnectionIdentifiers) (call : IdentifierCall) (next : ConnectionIdentifiers)
      (holds : state.Unique ∧ state.Gone seq) (stepped : identifierMachine.step state call = some next) :
      next.Unique ∧ next.Gone seq := by
    obtain ⟨other, same, kept, _⟩ := holds.1.step call
    cases same.symm.trans stepped
    exact ⟨kept, holds.2.evolves (holds.1.step_evolves stepped)⟩
  have gone := identifierMachine.run_keeps goneStep ⟨uniqueRetired, unique.retireScid_gone called⟩ ran
  exact gone.2.retireScid_eq dcid

/-- One identifier of two is retired, and its frame arrives again. -/
theorem retired_again_fails : ∃ ids retired,
    identifierMachine.run (new 2 [9] 0 none) [.scid (.newScid [1] (some 7) true none false)] = some ids ∧
      retireScid 0 [1] ids = .ok (some 0) retired ∧ retireScid 0 [1] retired = .error .outOfIdentifiers retired :=
  ⟨_, _, rfl, rfl, rfl⟩

end Quiche.ConnectionIdentifiers
