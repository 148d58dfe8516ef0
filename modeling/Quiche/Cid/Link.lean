import Quiche.Cid.Retired

namespace Quiche.ConnectionIdentifiers

open Data

variable {ids : ConnectionIdentifiers}

section Destination

variable {seq pathId : Nat}

theorem mem_update_linkTo_cases {entries : List ConnectionIdEntry} {entry : ConnectionIdEntry}
    (member : entry ∈ ConnectionIdVecDeque.update (·.linkTo pathId) seq entries) :
    entry ∈ entries ∨ entry.seq = seq ∧ entry.pathId = some pathId := by
  induction entries with
  | nil => exact .inl member
  | cons head rest ih =>
    rw [ConnectionIdVecDeque.update] at member
    split at member
    · rename_i same
      rcases List.mem_cons.mp member with rfl | later
      · exact .inr ⟨same, rfl⟩
      · exact .inl (List.mem_cons_of_mem _ later)
    · rcases List.mem_cons.mp member with rfl | later
      · exact .inl List.mem_cons_self
      · exact (ih later).imp_left (List.mem_cons_of_mem _)

theorem get_dcid_isSome : (ids.dcids.get seq).isSome = true ↔ seq ∈ ids.activeDcids := by
  rw [ConnectionIdVecDeque.get, List.find?_isSome, mem_activeDcids]
  simp only [decide_eq_true_eq]

theorem linkDcidToPathId_spec (active : seq ∈ ids.activeDcids) (pathId : Nat) :
    ∃ dcids, linkDcidToPathId seq pathId ids = .ok () { ids with dcids } ∧ dcids.inner.map (·.seq) = ids.activeDcids ∧
      ∀ entry ∈ dcids.inner, entry ∈ ids.dcids.inner ∨ entry.seq = seq ∧ entry.pathId = some pathId := by
  have linked : linkDcidToPathId seq pathId ids = .ok () { ids with dcids := { ids.dcids with
      inner := ConnectionIdVecDeque.update (·.linkTo pathId) seq ids.dcids.inner } } := by
    rw [linkDcidToPathId, if_pos (get_dcid_isSome.mpr active)]
  exact ⟨_, linked, seqs_update_linkTo pathId seq ids.dcids.inner, fun entry => mem_update_linkTo_cases⟩

theorem lowestAvailableDcidSeq_active (found : ids.lowestAvailableDcidSeq = some seq) : seq ∈ ids.activeDcids := by
  rw [lowestAvailableDcidSeq, List.min?_eq_some_iff] at found
  obtain ⟨entry, member, same⟩ := List.mem_map.mp found.1
  exact mem_activeDcids.mpr ⟨entry, (List.mem_filter.mp member).1, same⟩

/-- At most one destination identifier is new. -/
structure AddsDcid (next ids : ConnectionIdentifiers) (entry : ConnectionIdEntry) : Prop where
  scids : next.scids = ids.scids
  zeroLengthDcid : next.zeroLengthDcid = ids.zeroLengthDcid
  active : next.activeDcids = ids.activeDcids ∨ next.activeDcids = ids.activeDcids ++ [entry.seq]
  among : ∀ stored ∈ next.dcids.inner, stored ∈ ids.dcids.inner ∨ stored = entry

theorem addDcid_adds {entry : ConnectionIdEntry} (drained : Drained)
    (fresh : ∀ old ∈ ids.dcids.inner, old.seq ≠ entry.seq) : AddsDcid (after (addDcid entry drained ids)).1 ids entry ∧
      (after (addDcid entry drained ids)).2 = drained.retiredPathIds := by
  have frame : (after (addDcid entry drained ids)).1.scids = ids.scids ∧
      (after (addDcid entry drained ids)).1.zeroLengthDcid = ids.zeroLengthDcid ∧
      (after (addDcid entry drained ids)).2 = drained.retiredPathIds := by
    rw [addDcid]
    split
    · exact ⟨rfl, rfl, rfl⟩
    · split <;> exact ⟨rfl, rfl, rfl⟩
  obtain ⟨scids, zeroLengthDcid, reported⟩ := frame
  obtain ⟨_, among, _⟩ := addDcid_spec drained fresh
  exact ⟨⟨scids, zeroLengthDcid, addDcid_activeDcids drained fresh, among⟩, reported⟩

end Destination

section Drain

variable {retired : ConnectionIdSeqSet} {entries : List ConnectionIdEntry} {retiredPathIds : List (Nat × Nat)}

def noted (retiredPathIds : List (Nat × Nat)) (entry : ConnectionIdEntry) : List (Nat × Nat) :=
  match entry.pathId with
  | some pid => retiredPathIds ++ [(entry.seq, pid)]
  | none => retiredPathIds

theorem drain_cons (retired : ConnectionIdSeqSet) (retiredPathIds : List (Nat × Nat)) (entry : ConnectionIdEntry)
    (rest : List ConnectionIdEntry) : drain retired retiredPathIds (entry :: rest) = match retired.insert entry.seq with
      | .error reason => ⟨retired, noted retiredPathIds entry, some reason⟩
      | .ok retired => drain retired (noted retiredPathIds entry) rest :=
  rfl

variable {seq pid : Nat}

theorem mem_noted {entry : ConnectionIdEntry} : (seq, pid) ∈ noted retiredPathIds entry ↔
      (seq, pid) ∈ retiredPathIds ∨ entry.seq = seq ∧ entry.pathId = some pid := by
  rw [noted]
  split
  · rename_i recorded
    simp [recorded, eq_comm]
  · rename_i unrecorded
    simp [unrecorded]

theorem drain_sound (reported : (seq, pid) ∈ (drain retired retiredPathIds entries).retiredPathIds) :
    (seq, pid) ∈ retiredPathIds ∨ ∃ entry ∈ entries, entry.seq = seq ∧ entry.pathId = some pid := by
  induction entries generalizing retired retiredPathIds with
  | nil => exact .inl reported
  | cons entry rest ih =>
    have here : (seq, pid) ∈ noted retiredPathIds entry →
        (seq, pid) ∈ retiredPathIds ∨ ∃ other ∈ entry :: rest, other.seq = seq ∧ other.pathId = some pid :=
      fun member => (mem_noted.mp member).imp_right fun same => ⟨entry, List.mem_cons_self, same⟩
    rw [drain_cons] at reported
    split at reported
    · exact here reported
    · rcases ih reported with before | ⟨other, member, same⟩
      · exact here before
      · exact .inr ⟨other, List.mem_cons_of_mem _ member, same⟩

theorem insert_length {next : ConnectionIdSeqSet} (inserted : retired.insert seq = .ok next) :
    next.capacity = retired.capacity ∧ next.inner.length ≤ retired.inner.length + 1 := by
  rw [ConnectionIdSeqSet.insert] at inserted
  split at inserted
  · cases inserted
  · cases inserted
    refine ⟨rfl, ?_⟩
    rw [List.length_insert]
    split <;> omega

theorem drain_complete (room : retired.inner.length + entries.length ≤ retired.capacity + 1)
    (recorded : (seq, pid) ∈ retiredPathIds ∨ ∃ entry ∈ entries, entry.seq = seq ∧ entry.pathId = some pid) :
    (seq, pid) ∈ (drain retired retiredPathIds entries).retiredPathIds := by
  induction entries generalizing retired retiredPathIds with
  | nil => simpa [drain] using recorded
  | cons entry rest ih =>
    have either : (seq, pid) ∈ noted retiredPathIds entry ∨
        ∃ other ∈ rest, other.seq = seq ∧ other.pathId = some pid := by
      rw [mem_noted]
      rcases recorded with before | ⟨other, member, same⟩
      · exact .inl (.inl before)
      · rcases List.mem_cons.mp member with rfl | later
        · exact .inl (.inr same)
        · exact .inr ⟨other, later, same⟩
    rw [List.length_cons] at room
    rw [drain_cons]
    split
    · rename_i reason full
      -- The set is full, so that this entry is the last one.
      have last : rest = [] := by
        rw [ConnectionIdSeqSet.insert] at full
        split at full
        · apply List.eq_nil_of_length_eq_zero
          omega
        · cases full
      subst last
      simpa using either
    · rename_i next inserted
      obtain ⟨capacity, length⟩ := insert_length inserted
      exact ih (by omega) either

end Drain

section Source

variable {seq : Nat}

def activeScids (ids : ConnectionIdentifiers) : List Nat := ids.scids.inner.map (·.seq)

theorem mem_activeScids : seq ∈ ids.activeScids ↔ ∃ entry ∈ ids.scids.inner, entry.seq = seq := List.mem_map

theorem get_scid_isSome : (ids.scids.get seq).isSome = true ↔ seq ∈ ids.activeScids := by
  rw [ConnectionIdVecDeque.get, List.find?_isSome, mem_activeScids]
  simp only [decide_eq_true_eq]

theorem linkScidToPathId_spec (scidSeq pathId : Nat) (ids : ConnectionIdentifiers) :
    ∃ scids, after (linkScidToPathId scidSeq pathId ids) = { ids with scids } ∧
      scids.inner.map (·.seq) = ids.activeScids := by
  rw [linkScidToPathId]
  split
  · exact ⟨_, rfl, seqs_update_linkTo pathId scidSeq ids.scids.inner⟩
  · exact ⟨ids.scids, rfl, rfl⟩

theorem findScidSeq_active {scid : List UInt8} {pathId : Option Nat}
    (found : ids.findScidSeq scid = some (seq, pathId)) : seq ∈ ids.activeScids := by
  obtain ⟨entry, present, same⟩ := Option.map_eq_some_iff.mp found
  cases same
  exact mem_activeScids.mpr ⟨entry, List.mem_of_find?_eq_some present, rfl⟩

theorem insert_seqs {deque next : ConnectionIdVecDeque} {entry : ConnectionIdEntry}
    (inserted : deque.insert entry = .ok next) (present : seq ∈ deque.inner.map (·.seq)) :
    seq ∈ next.inner.map (·.seq) := by
  rw [ConnectionIdVecDeque.insert] at inserted
  split at inserted
  · cases inserted
    rw [seqs_update fun _ _ => rfl]
    exact present
  · split at inserted
    · cases inserted
    · cases inserted
      rw [List.map_append]
      exact List.mem_append_left _ present

/-- The destination identifiers stay. -/
structure SameDcids (next ids : ConnectionIdentifiers) : Prop where
  dcids : next.dcids = ids.dcids
  zeroLengthDcid : next.zeroLengthDcid = ids.zeroLengthDcid

/-- The destination identifiers stay, and no source identifier goes. -/
structure MoreScids (next ids : ConnectionIdentifiers) : Prop extends SameDcids next ids where
  active : ∀ seq ∈ ids.activeScids, seq ∈ next.activeScids

theorem MoreScids.refl (ids : ConnectionIdentifiers) : MoreScids ids ids := ⟨⟨rfl, rfl⟩, fun _ member => member⟩

theorem MoreScids.trans {first second third : ConnectionIdentifiers} (left : MoreScids third second)
    (right : MoreScids second first) : MoreScids third first :=
  ⟨⟨left.dcids.trans right.dcids, left.zeroLengthDcid.trans right.zeroLengthDcid⟩,
    fun seq member => left.active seq (right.active seq member)⟩

theorem makeRoom_moreScids (retireIfNeeded : Bool) (ids : ConnectionIdentifiers) :
    MoreScids (after (makeRoom retireIfNeeded ids)) ids := by
  rw [makeRoom]
  split
  · split
    · split <;> exact ⟨⟨rfl, rfl⟩, fun _ member => member⟩
    · exact .refl ids
  · exact .refl ids

section

variable (cid : List UInt8) (resetToken : Option (BitVec 128)) (advertise : Bool) (pathId : Option Nat)

theorem addScid_moreScids (ids : ConnectionIdentifiers) :
    MoreScids (after (addScid cid resetToken advertise pathId ids)) ids := by
  rw [addScid]
  split
  · exact .refl ids
  · split
    · split <;> exact .refl ids
    · split
      · exact .refl ids
      · rename_i scids inserted
        rw [markAdvertiseNewScidSeq]
        split <;> exact ⟨⟨rfl, rfl⟩, fun _ => insert_seqs inserted⟩

theorem newScid_moreScids (retireIfNeeded : Bool) (ids : ConnectionIdentifiers) :
    MoreScids (after (newScid cid resetToken advertise pathId retireIfNeeded ids)) ids := by
  have preserved : Preserves (MoreScids · ids) (newScid cid resetToken advertise pathId retireIfNeeded) := by
    apply preserves_get.bind
    intro _
    apply Preserves.ite (preserves_throw _)
    apply Preserves.bind
    · exact ⟨fun middle more => (makeRoom_moreScids retireIfNeeded middle).trans more⟩
    · exact fun _ => ⟨fun middle more => (addScid_moreScids cid resetToken advertise pathId middle).trans more⟩
  exact preserved.kept ids (.refl ids)

end

theorem lowestUsableScidSeq_eq_none (unusable : ids.lowestUsableScidSeq = none) :
    ∀ entry ∈ ids.scids.inner, entry.seq < ids.retirePriorTo := by
  intro entry member
  rw [lowestUsableScidSeq, List.min?_eq_none_iff, List.filter_eq_nil_iff] at unusable
  simpa using unusable entry.seq (List.mem_map.mpr ⟨entry, member, rfl⟩)

def remainingScids (ids : ConnectionIdentifiers) (seq : Nat) : List ConnectionIdEntry :=
  ids.scids.inner.eraseP fun entry => entry.seq = seq

/-- An identifier that is taken out; only a call that returns reports its path. -/
structure TakesOut (ids : ConnectionIdentifiers) (seq : Nat) (pktDcid : List UInt8) (entry : ConnectionIdEntry)
    (result : EStateM.Result Error ConnectionIdentifiers (Option Nat)) : Prop where
  found : ids.scids.get seq = some entry
  issued : seq < ids.nextScidSeq
  several : 1 < ids.scids.len
  left : (after result).scids.inner = ids.remainingScids seq
  reports : entry.cid ≠ pktDcid → (∃ other ∈ ids.remainingScids seq, ids.retirePriorTo ≤ other.seq) →
    ∃ next, result = .ok entry.pathId next

theorem retireScid_spec (seq : Nat) (pktDcid : List UInt8) (ids : ConnectionIdentifiers) :
    SameDcids (after (retireScid seq pktDcid ids)) ids ∧
      ((after (retireScid seq pktDcid ids)).activeScids = ids.activeScids ∨
        ∃ entry, TakesOut ids seq pktDcid entry (retireScid seq pktDcid ids)) := by
  rw [retireScid]
  split
  · exact ⟨⟨rfl, rfl⟩, .inl rfl⟩
  rename_i unissued
  rw [ConnectionIdVecDeque.remove]
  by_cases last : ids.scids.inner.length ≤ 1
  · rw [if_pos last]
    exact ⟨⟨rfl, rfl⟩, .inl rfl⟩
  rw [if_neg last]
  cases found : ids.scids.get seq with
  | none =>
    refine ⟨⟨rfl, rfl⟩, .inl ?_⟩
    have absent := List.find?_eq_none.mp found
    show (ids.scids.inner.eraseP _).map _ = _
    rw [List.eraseP_of_forall_not absent, activeScids]
  | some entry =>
    have taken : ∀ result : EStateM.Result Error ConnectionIdentifiers (Option Nat),
        (after result).scids.inner = ids.remainingScids seq →
        (entry.cid ≠ pktDcid → (∃ other ∈ ids.remainingScids seq, ids.retirePriorTo ≤ other.seq) →
          ∃ next, result = .ok entry.pathId next) → TakesOut ids seq pktDcid entry result :=
      fun result left reports => ⟨found, Nat.lt_of_not_le unissued, Nat.lt_of_not_le last, left, reports⟩
    dsimp only
    split
    · rename_i same
      exact ⟨⟨rfl, rfl⟩, .inr ⟨entry, taken _ rfl fun different => absurd same different⟩⟩
    · split
      · rename_i unusable
        refine ⟨⟨rfl, rfl⟩, .inr ⟨entry, taken _ rfl fun _ usable => ?_⟩⟩
        obtain ⟨other, member, atLeast⟩ := usable
        exact absurd (lowestUsableScidSeq_eq_none unusable other member) (Nat.not_lt.mpr atLeast)
      · exact ⟨⟨rfl, rfl⟩, .inr ⟨entry, taken _ rfl fun _ _ => ⟨_, rfl⟩⟩⟩

theorem TakesOut.active {pktDcid : List UInt8} {entry : ConnectionIdEntry} {other : Nat}
    {result : EStateM.Result Error ConnectionIdentifiers (Option Nat)}
    (takesOut : TakesOut ids seq pktDcid entry result) (member : other ∈ ids.activeScids)
    (different : other ≠ seq) : other ∈ (after result).activeScids := by
  obtain ⟨old, present, rfl⟩ := mem_activeScids.mp member
  apply mem_activeScids.mpr
  refine ⟨old, ?_, rfl⟩
  rw [takesOut.left, remainingScids, List.mem_eraseP_of_neg (by simpa using different)]
  exact present

end Source

end Quiche.ConnectionIdentifiers
