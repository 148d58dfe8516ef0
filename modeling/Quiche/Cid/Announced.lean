import Mathlib.Data.Finset.Card
import Quiche.Cid.Atomic

namespace Quiche.ConnectionIdentifiers

open Data

variable {ids next : ConnectionIdentifiers}

section Drain

variable {retired : ConnectionIdSeqSet} {entries : List ConnectionIdEntry} {retiredPathIds : List (Nat × Nat)}

def gathered (retired : ConnectionIdSeqSet) (entries : List ConnectionIdEntry) : Finset Nat :=
  (retired.inner ++ entries.map (·.seq)).toFinset

/-- The set holds no number twice, and no more than it has room for. -/
structure WithinCapacity (retired : ConnectionIdSeqSet) : Prop where
  nodup : retired.inner.Nodup
  room : retired.inner.length ≤ retired.capacity

section

variable (within : WithinCapacity retired)

include within

theorem WithinCapacity.card : retired.inner.toFinset.card = retired.inner.length :=
  List.toFinset_card_of_nodup within.nodup

theorem WithinCapacity.insert {seq : Nat} {larger : ConnectionIdSeqSet}
    (inserted : retired.insert seq = .ok larger) : WithinCapacity larger ∧ larger.capacity = retired.capacity ∧
      ∀ other, other ∈ larger.inner ↔ other = seq ∨ other ∈ retired.inner := by
  obtain ⟨capacity, length⟩ := insert_length inserted
  rw [ConnectionIdSeqSet.insert] at inserted
  split at inserted
  · cases inserted
  · cases inserted
    exact ⟨⟨within.nodup.insert, by dsimp only at length ⊢; omega⟩, capacity, fun other => List.mem_insert_iff⟩

theorem WithinCapacity.remove (seq : Nat) : WithinCapacity (retired.remove seq) where
  nodup := within.nodup.erase seq
  room := Nat.le_trans List.length_erase_le within.room

theorem drain_announces (retiredPathIds : List (Nat × Nat)) :
    WithinCapacity (drain retired retiredPathIds entries).retired ∧
      ((drain retired retiredPathIds entries).failure = none →
        ∀ entry ∈ entries, entry.seq ∈ (drain retired retiredPathIds entries).retired.inner) ∧
      (∀ seq ∈ retired.inner, seq ∈ (drain retired retiredPathIds entries).retired.inner) ∧
      ((∀ entry ∈ entries, entry.seq ∈ (drain retired retiredPathIds entries).retired.inner) ↔
        (gathered retired entries).card ≤ retired.capacity) := by
  induction entries generalizing retired retiredPathIds with
  | nil =>
    refine ⟨within, fun _ entry member => absurd member List.not_mem_nil, fun _ member => member, ?_⟩
    refine iff_of_true (fun entry member => absurd member List.not_mem_nil) ?_
    simp only [gathered, List.map_nil, List.append_nil]
    rw [within.card]
    exact within.room
  | cons entry rest ih =>
    rw [drain_cons]
    cases inserted : retired.insert entry.seq with
    | error reason =>
      have full : retired.capacity ≤ retired.inner.length := by
        rw [ConnectionIdSeqSet.insert] at inserted
        split at inserted
        · assumption
        · cases inserted
      refine ⟨within, (fun finished => by cases finished), fun _ member => member, ?_⟩
      have below : retired.inner.toFinset ⊆ gathered retired (entry :: rest) := by
        intro seq member
        exact List.mem_toFinset.mpr (List.mem_append_left _ (List.mem_toFinset.mp member))
      constructor
      · intro every
        have same : gathered retired (entry :: rest) ⊆ retired.inner.toFinset := by
          intro seq member
          rcases List.mem_append.mp (List.mem_toFinset.mp member) with held | added
          · exact List.mem_toFinset.mpr held
          · obtain ⟨other, among, rfl⟩ := List.mem_map.mp added
            exact List.mem_toFinset.mpr (every other among)
        calc (gathered retired (entry :: rest)).card ≤ retired.inner.toFinset.card := Finset.card_le_card same
          _ = retired.inner.length := within.card
          _ ≤ retired.capacity := within.room
      · intro few other among
        have least : (gathered retired (entry :: rest)).card ≤ retired.inner.toFinset.card := by
          rw [within.card]
          exact Nat.le_trans few full
        have same := Finset.eq_of_subset_of_card_le below least
        have member : other.seq ∈ gathered retired (entry :: rest) :=
          List.mem_toFinset.mpr (List.mem_append_right _ (List.mem_map_of_mem among))
        rw [← same] at member
        exact List.mem_toFinset.mp member
    | ok larger =>
      obtain ⟨larger_within, capacity, members⟩ := within.insert inserted
      obtain ⟨final, finished, kept, exact_⟩ := ih larger_within (noted retiredPathIds entry)
      have union : gathered larger rest = gathered retired (entry :: rest) := by
        ext seq
        simp only [gathered, List.mem_toFinset, List.mem_append, List.map_cons, List.mem_cons, members]
        tauto
      have here := kept entry.seq ((members entry.seq).mpr (.inl rfl))
      refine ⟨final, ?_, fun seq member => kept seq ((members seq).mpr (.inr member)), ?_⟩
      · intro untaken other among
        rcases List.mem_cons.mp among with rfl | later
        · exact here
        · exact finished untaken other later
      · rw [← union, ← capacity, ← exact_]
        exact ⟨fun every other later => every other (List.mem_cons_of_mem _ later), fun every other among => by
            rcases List.mem_cons.mp among with rfl | later
            · exact here
            · exact every other later⟩

end

end Drain

section Calls

variable {cid : List UInt8} {seq retirePriorTo : Nat} {retiredPathIds : List (Nat × Nat)}

/-- No destination identifier is stored twice, and the queue of those to retire keeps to its capacity. -/
structure Retirable (ids : ConnectionIdentifiers) : Prop where
  seqs : ids.activeDcids.Nodup
  queue : WithinCapacity ids.retireDcidSeqs

section

variable (retirable : ids.Retirable)

include retirable

theorem Retirable.frame (dcids : next.dcids.inner = ids.dcids.inner)
    (queue : next.retireDcidSeqs = ids.retireDcidSeqs) : next.Retirable := by
  refine ⟨?_, queue ▸ retirable.queue⟩
  rw [activeDcids, dcids]
  exact retirable.seqs

theorem Retirable.markRetireDcidSeq (seq : Nat) (retire : Bool) :
    (after (markRetireDcidSeq seq retire ids)).Retirable := by
  rw [ConnectionIdentifiers.markRetireDcidSeq]
  split
  · split
    · exact retirable
    · rename_i inserted
      exact ⟨retirable.seqs, (retirable.queue.insert inserted).1⟩
  · exact ⟨retirable.seqs, retirable.queue.remove seq⟩

theorem Retirable.eraseDcid (seq : Nat) : ({ ids with dcids := { ids.dcids with
      inner := ids.dcids.inner.eraseP fun entry => entry.seq = seq } } : ConnectionIdentifiers).Retirable :=
  ⟨retirable.seqs.sublist (List.Sublist.map _ List.eraseP_sublist), retirable.queue⟩

theorem Retirable.retireDcid (seq : Nat) : (after (retireDcid seq ids)).Retirable := by
  rw [ConnectionIdentifiers.retireDcid, ConnectionIdVecDeque.remove]
  split
  · exact retirable
  · by_cases last : ids.dcids.inner.length ≤ 1
    · rw [if_pos last]
      exact retirable
    · rw [if_neg last]
      have erased := retirable.eraseDcid seq
      cases found : ids.dcids.get seq with
      | none => exact erased
      | some entry =>
        have marked := erased.markRetireDcidSeq seq true
        dsimp only
        split <;> rename_i called <;> rw [called] at marked <;> exact marked

end

theorem addDcid_queue (entry : ConnectionIdEntry) (drained : Drained) (ids : ConnectionIdentifiers) :
    (after (addDcid entry drained ids)).1.retireDcidSeqs = ids.retireDcidSeqs := by
  rw [addDcid]
  split
  · rfl
  · split <;> rfl

section

variable (retirable : ids.Retirable)

include retirable

theorem Retirable.addDcid {entry : ConnectionIdEntry} (drained : Drained)
    (fresh : ∀ old ∈ ids.dcids.inner, old.seq ≠ entry.seq) : (after (addDcid entry drained ids)).1.Retirable := by
  refine ⟨?_, addDcid_queue entry drained ids ▸ retirable.queue⟩
  rcases addDcid_activeDcids drained fresh with same | grown
  · rw [same]
    exact retirable.seqs
  · rw [grown]
    refine List.nodup_append.mpr ⟨retirable.seqs, List.nodup_singleton _, ?_⟩
    intro old active added member equal
    cases List.mem_singleton.mp member
    obtain ⟨stored, among, rfl⟩ := mem_activeDcids.mp active
    exact fresh stored among equal

theorem Retirable.retireDcids (wrap retirePriorTo : Nat) :
    (retireDcids wrap retirePriorTo retiredPathIds ids).2.Retirable :=
  ⟨retirable.seqs.sublist (List.Sublist.map _ (List.drop_sublist _ _)),
    (drain_announces retirable.queue retiredPathIds).1⟩

theorem Retirable.newDcid (cid : List UInt8) (seq : Nat) (resetToken : BitVec 128)
    (retirePriorTo wrap : Nat) (retiredPathIds : List (Nat × Nat)) :
    (after (newDcid cid seq resetToken retirePriorTo wrap (ids, retiredPathIds))).1.Retirable := by
  have seen : (ids.sees seq).Retirable := retirable.frame rfl rfl
  rcases newDcid_spec cid seq resetToken retirePriorTo wrap ids retiredPathIds with
    ⟨retireDcidSeqs, queue, same⟩ | ⟨fresh, _, called⟩ | ⟨_, fresh, _, _, called⟩
  · rw [same]
    rcases queue with rfl | inserted
    · exact retirable
    · exact ⟨retirable.seqs, (retirable.queue.insert inserted).1⟩
  · rw [called]
    exact seen.addDcid _ fresh.sees
  · rw [called]
    exact (seen.retireDcids wrap retirePriorTo).addDcid _ (fresh.retireDcids wrap retiredPathIds)

theorem Retirable.setInitialDcid (cid : List UInt8) (resetToken : Option (BitVec 128))
    (pathId : Option Nat) : (ids.setInitialDcid cid resetToken pathId).Retirable :=
  ⟨List.nodup_singleton _, retirable.queue⟩

end

end Calls

section Reachable

theorem scidMachine_frame {call : ScidCall} (stepped : scidMachine.step ids call = some next) :
    next.dcids = ids.dcids ∧ next.retireDcidSeqs = ids.retireDcidSeqs := by
  cases call with
  | newScid cid resetToken advertise pathId retireIfNeeded =>
    cases stepped
    have added : ∀ before : ConnectionIdentifiers,
        (after (addScid cid resetToken advertise pathId before)).dcids = before.dcids ∧
          (after (addScid cid resetToken advertise pathId before)).retireDcidSeqs = before.retireDcidSeqs := by
      intro before
      rw [addScid]
      split
      · exact ⟨rfl, rfl⟩
      · split
        · split <;> exact ⟨rfl, rfl⟩
        · split
          · exact ⟨rfl, rfl⟩
          · rw [markAdvertiseNewScidSeq]
            split <;> exact ⟨rfl, rfl⟩
    have outcome := newScid_cases ids cid resetToken advertise pathId retireIfNeeded
    generalize newScid cid resetToken advertise pathId retireIfNeeded ids = result at outcome ⊢
    cases outcome with
    | failed error early => exact ⟨rfl, rfl⟩
    | room few => exact added ids
    | retired lowest active full retires found => exact added { ids with retirePriorTo := lowest + 1 }
  | retireScid seq pktDcid =>
    cases stepped
    rw [retireScid]
    split
    · exact ⟨rfl, rfl⟩
    · split
      · exact ⟨rfl, rfl⟩
      · exact ⟨rfl, rfl⟩
      · dsimp only
        split
        · exact ⟨rfl, rfl⟩
        · split <;> exact ⟨rfl, rfl⟩
  | setSourceConnIdLimit v =>
    cases stepped
    rw [setSourceConnIdLimit]
    split <;> exact ⟨rfl, rfl⟩
  | markAdvertiseNewScidSeq scidSeq advertise =>
    cases stepped
    rw [markAdvertiseNewScidSeq]
    split <;> exact ⟨rfl, rfl⟩

theorem Retirable.step (retirable : ids.Retirable) (call : IdentifierCall) :
    ∃ next, identifierMachine.step ids call = some next ∧ next.Retirable := by
  cases call with
  | scid call =>
    obtain ⟨next, stepped⟩ : ∃ next, scidMachine.step ids call = some next := by
      cases call <;> exact ⟨_, rfl⟩
    obtain ⟨dcids, queue⟩ := scidMachine_frame stepped
    exact ⟨next, stepped, retirable.frame (by rw [dcids]) queue⟩
  | dcid call =>
    cases call with
    | newDcid cid seq resetToken retirePriorTo wrap retiredPathIds =>
      exact ⟨_, rfl, retirable.newDcid cid seq resetToken retirePriorTo wrap retiredPathIds⟩
    | retireDcid seq => exact ⟨_, rfl, retirable.retireDcid seq⟩
    | linkDcidToPathId dcidSeq pathId =>
      refine ⟨_, rfl, ?_, ?_⟩
      · rw [linkDcidToPathId_activeDcids]
        exact retirable.seqs
      · rw [linkDcidToPathId]
        split <;> exact retirable.queue
    | markRetireDcidSeq dcidSeq retire => exact ⟨_, rfl, retirable.markRetireDcidSeq dcidSeq retire⟩
  | linkScidToPathId scidSeq pathId =>
    refine ⟨_, rfl, ?_⟩
    rw [linkScidToPathId]
    split
    · exact retirable.frame rfl rfl
    · exact retirable
  | setInitialDcid cid resetToken pathId => exact ⟨_, rfl, retirable.setInitialDcid cid resetToken pathId⟩

theorem new_retirable (limit : Nat) (scid : List UInt8) (pathId : Nat) (resetToken : Option (BitVec 128)) :
    (new limit scid pathId resetToken).Retirable := ⟨List.nodup_singleton _, .nil, Nat.zero_le _⟩

end Reachable

section Atomic

variable {seq retirePriorTo wrap : Nat}

/-- The identifier is one that could be retired, but the queue of those to retire is full. -/
def Overfull (ids : ConnectionIdentifiers) (seq : Nat) : Prop :=
  ids.zeroLengthDcid = false ∧ 1 < ids.dcids.inner.length ∧ seq ∈ ids.activeDcids ∧
    ids.retireDcidSeqs.capacity ≤ ids.retireDcidSeqs.inner.length

/-- A failing `retire_dcid` changes nothing, and another one moves exactly its identifier to the queue. -/
structure RetiresAtomically (ids : ConnectionIdentifiers) (seq : Nat) : Prop where
  fails : ∀ error next, retireDcid seq ids = .error error next →
    next.dcids = ids.dcids ∧ next.retireDcidSeqs = ids.retireDcidSeqs
  succeeds : ∀ pid next, retireDcid seq ids = .ok pid next → seq ∈ ids.activeDcids ∧
      (∀ entry, entry ∈ next.dcids.inner ↔ entry ∈ ids.dcids.inner ∧ entry.seq ≠ seq) ∧ seq ∈ next.retireDcidSeqs.inner

/-- Every destination identifier that is gone waits for its `RETIRE_CONNECTION_ID` frame. -/
def Queues (next ids : ConnectionIdentifiers) : Prop :=
  ∀ seq ∈ ids.activeDcids, seq ∉ next.activeDcids → seq ∈ next.retireDcidSeqs.inner

/-- The new destination identifier makes the peer's number to retire prior to grow. -/
def Retires (ids : ConnectionIdentifiers) (cid : List UInt8) (seq retirePriorTo : Nat) : Prop :=
  ids.zeroLengthDcid = false ∧ ids.Fresh cid seq ∧ ids.largestPeerRetirePriorTo < retirePriorTo ∧ retirePriorTo ≤ seq

def toRetire (ids : ConnectionIdentifiers) (retirePriorTo wrap : Nat) : List ConnectionIdEntry :=
  ids.dcids.inner.take (ringPartitionPoint (fun entry => entry.seq < retirePriorTo) wrap ids.dcids.inner)

theorem Retirable.mem_erased (retirable : ids.Retirable) {entry : ConnectionIdEntry} :
    entry ∈ ids.dcids.inner.eraseP (fun entry => entry.seq = seq) ↔ entry ∈ ids.dcids.inner ∧ entry.seq ≠ seq := by
  have seqs := retirable.seqs
  rw [activeDcids] at seqs
  generalize ids.dcids.inner = entries at seqs
  induction entries with
  | nil => simp
  | cons head rest ih =>
    obtain ⟨absent, others⟩ := List.nodup_cons.mp seqs
    by_cases same : head.seq = seq
    · rw [List.eraseP_cons_of_pos (by simpa using same)]
      constructor
      · intro member
        refine ⟨List.mem_cons_of_mem _ member, fun equal => absent ?_⟩
        exact List.mem_map.mpr ⟨entry, member, equal.trans same.symm⟩
      · rintro ⟨member, different⟩
        rcases List.mem_cons.mp member with rfl | later
        · exact absurd same different
        · exact later
    · have kept : (head :: rest).eraseP (fun entry => decide (entry.seq = seq)) =
          head :: rest.eraseP fun entry => decide (entry.seq = seq) := List.eraseP_cons_of_neg (by simpa using same)
      have behind := ih others
      simp only [kept, List.mem_cons, behind]
      constructor
      · rintro (rfl | ⟨member, different⟩)
        · exact ⟨.inl rfl, same⟩
        · exact ⟨.inr member, different⟩
      · rintro ⟨rfl | member, different⟩
        · exact .inl rfl
        · exact .inr ⟨member, different⟩

theorem retiresAtomically_iff (retirable : ids.Retirable) (seq : Nat) :
    ids.RetiresAtomically seq ↔ ¬ ids.Overfull seq := by
  cases active : ids.zeroLengthDcid with
  | true =>
    have failed : retireDcid seq ids = .error .invalidState ids := by
      rw [retireDcid, if_pos active]
    refine iff_of_true ⟨fun error next same => ?_, fun pid next same => ?_⟩ fun overfull => ?_
    · cases failed.symm.trans same
      exact ⟨rfl, rfl⟩
    · cases failed.symm.trans same
    · cases active.symm.trans overfull.1
  | false =>
    by_cases last : ids.dcids.inner.length ≤ 1
    · have failed : retireDcid seq ids = .error .outOfIdentifiers ids := by
        rw [retireDcid, if_neg (Bool.eq_false_iff.mp active), ConnectionIdVecDeque.remove, if_pos last]
      refine iff_of_true ⟨fun error next same => ?_, fun pid next same => ?_⟩ fun overfull => ?_
      · cases failed.symm.trans same
        exact ⟨rfl, rfl⟩
      · cases failed.symm.trans same
      · exact absurd overfull.2.1 (Nat.not_lt.mpr last)
    · cases found : ids.dcids.get seq with
      | none =>
        have absent : ids.dcids.inner.eraseP (fun entry => entry.seq = seq) = ids.dcids.inner :=
          List.eraseP_of_forall_not (List.find?_eq_none.mp found)
        have failed : retireDcid seq ids = .error .invalidState ids := by
          rw [retireDcid, if_neg (Bool.eq_false_iff.mp active), ConnectionIdVecDeque.remove, if_neg last, found]
          simp only [absent]
        refine iff_of_true ⟨fun error next same => ?_, fun pid next same => ?_⟩ fun overfull => ?_
        · cases failed.symm.trans same
          exact ⟨rfl, rfl⟩
        · cases failed.symm.trans same
        · have there := get_dcid_isSome.mpr overfull.2.2.1
          rw [found] at there
          cases there
      | some entry =>
        have there : seq ∈ ids.activeDcids := get_dcid_isSome.mp (by rw [found]; rfl)
        cases inserted : ids.retireDcidSeqs.insert seq with
        | error reason =>
          have full : ids.retireDcidSeqs.capacity ≤ ids.retireDcidSeqs.inner.length := by
            rw [ConnectionIdSeqSet.insert] at inserted
            split at inserted
            · assumption
            · cases inserted
          have failed : retireDcid seq ids = .error reason { ids with dcids := { ids.dcids with
              inner := ids.dcids.inner.eraseP fun entry => entry.seq = seq } } := by
            rw [retireDcid, if_neg (Bool.eq_false_iff.mp active), ConnectionIdVecDeque.remove, if_neg last, found]
            simp only [ConnectionIdentifiers.markRetireDcidSeq, if_true, inserted]
          refine iff_of_false (fun atomic => ?_) (not_not_intro ⟨active, Nat.not_le.mp last, there, full⟩)
          obtain ⟨member, same⟩ := ConnectionIdVecDeque.mem_of_get found
          have kept := (atomic.fails _ _ failed).1
          rw [← kept] at member
          exact (retirable.mem_erased.mp member).2 same
        | ok queue =>
          have room : ¬ ids.retireDcidSeqs.capacity ≤ ids.retireDcidSeqs.inner.length := by
            rw [ConnectionIdSeqSet.insert] at inserted
            split at inserted
            · cases inserted
            · assumption
          have returned : retireDcid seq ids = .ok entry.pathId { ids with
              dcids := { ids.dcids with inner := ids.dcids.inner.eraseP fun entry => entry.seq = seq }
              retireDcidSeqs := queue } := by
            rw [retireDcid, if_neg (Bool.eq_false_iff.mp active), ConnectionIdVecDeque.remove, if_neg last, found]
            simp only [ConnectionIdentifiers.markRetireDcidSeq, if_true, inserted]
          refine iff_of_true ⟨fun error next same => ?_, fun pid next same => ?_⟩ fun overfull => room overfull.2.2.2
          · cases returned.symm.trans same
          · cases returned.symm.trans same
            exact ⟨there, fun other => retirable.mem_erased,
              ((retirable.queue.insert inserted).2.2 seq).mpr (.inl rfl)⟩

theorem newDcid_of_retires {cid : List UInt8} (retires : ids.Retires cid seq retirePriorTo) (resetToken : BitVec 128)
    (retiredPathIds : List (Nat × Nat)) : newDcid cid seq resetToken retirePriorTo wrap (ids, retiredPathIds) =
      addDcid ⟨cid, seq, some resetToken, none⟩ (retireDcids wrap retirePriorTo retiredPathIds (ids.sees seq)).1
        (retireDcids wrap retirePriorTo retiredPathIds (ids.sees seq)).2 := by
  obtain ⟨active, fresh, larger, bound⟩ := retires
  have absent : ids.dcids.inner.find? (fun entry => entry.cid = cid ∨ entry.seq = seq) = none := by
    refine List.find?_eq_none.mpr fun entry member => ?_
    obtain ⟨cids, seqs⟩ := fresh entry member
    simp [cids, seqs]
  rw [newDcid, if_neg (Bool.eq_false_iff.mp active), absent]
  dsimp only
  rw [if_neg (Nat.not_lt.mpr bound), if_neg (show ¬ seq < ids.largestPeerRetirePriorTo by omega), if_pos larger,
    if_neg (Nat.not_lt.mpr bound)]
  rfl

theorem newDcid_queues_iff (retirable : ids.Retirable) (cid : List UInt8) (resetToken : BitVec 128)
    (retiredPathIds : List (Nat × Nat)) :
    (∀ error next reported, newDcid cid seq resetToken retirePriorTo wrap (ids, retiredPathIds) =
        .error error (next, reported) → Queues next ids) ↔ (ids.Retires cid seq retirePriorTo →
        (gathered ids.retireDcidSeqs (ids.toRetire retirePriorTo wrap)).card ≤ ids.retireDcidSeqs.capacity) := by
  by_cases retires : ids.Retires cid seq retirePriorTo
  · obtain ⟨_, finished, _, announced⟩ := drain_announces retirable.queue retiredPathIds
    rw [forall_prop_of_true retires, newDcid_of_retires retires, ← announced]
    obtain ⟨_, fresh, _, _⟩ := retires
    obtain ⟨entry, is⟩ : ∃ entry : ConnectionIdEntry, entry = ⟨cid, seq, some resetToken, none⟩ := ⟨_, rfl⟩
    obtain ⟨left, drops⟩ : ∃ left, left = (retireDcids wrap retirePriorTo retiredPathIds (ids.sees seq)).2 := ⟨_, rfl⟩
    have remaining : ∀ old ∈ left.dcids.inner, old.seq ≠ entry.seq := by
      rw [drops, is]
      exact fresh.retireDcids wrap retiredPathIds
    have split : ids.dcids.inner = ids.toRetire retirePriorTo wrap ++ left.dcids.inner := by
      rw [drops]
      exact (List.take_append_drop _ _).symm
    have queue : left.retireDcidSeqs =
      (drain ids.retireDcidSeqs retiredPathIds (ids.toRetire retirePriorTo wrap)).retired := by
      rw [drops]
      rfl
    rw [← is, ← drops]
    constructor
    · intro every old taken
      by_contra lost
      obtain ⟨failure, unfinished⟩ : ∃ failure,
          (drain ids.retireDcidSeqs retiredPathIds (ids.toRetire retirePriorTo wrap)).failure = some failure := by
        refine Option.ne_none_iff_exists'.mp fun untaken => lost ?_
        exact finished untaken old taken
      obtain ⟨error, next, reported, failed⟩ : ∃ error next reported,
          addDcid entry (retireDcids wrap retirePriorTo retiredPathIds (ids.sees seq)).1 left =
            .error error (next, reported) := by
        rw [addDcid]
        split
        · exact ⟨_, _, _, rfl⟩
        · have same : (retireDcids wrap retirePriorTo retiredPathIds (ids.sees seq)).1.failure = some failure :=
            unfinished
          rw [same]
          exact ⟨_, _, _, rfl⟩
      have member : old ∈ ids.dcids.inner := split ▸ List.mem_append_left _ taken
      have apart := retirable.seqs
      rw [activeDcids, split, List.map_append, List.nodup_append] at apart
      have gone : old.seq ∉ next.activeDcids := by
        intro still
        have kept : old.seq ∈ (after (addDcid entry (retireDcids wrap retirePriorTo retiredPathIds (ids.sees seq)).1
            left)).1.activeDcids := by
          rw [failed]
          exact still
        rcases mem_addDcid _ remaining kept with stays | isNew
        · obtain ⟨other, among, same⟩ := mem_activeDcids.mp stays
          exact apart.2.2 old.seq (List.mem_map_of_mem taken) other.seq (List.mem_map_of_mem among) same.symm
        · rw [is] at isNew
          exact (fresh old member).2 isNew
      have queued := every error next reported failed old.seq (mem_activeDcids.mpr ⟨old, member, rfl⟩) gone
      have announces := addDcid_queue entry (retireDcids wrap retirePriorTo retiredPathIds (ids.sees seq)).1 left
      rw [failed] at announces
      have same : next.retireDcidSeqs = left.retireDcidSeqs := announces
      rw [same, queue] at queued
      exact lost queued
    · intro every error next reported failed active was gone
      have takenOut : active ∉ left.activeDcids := by
        intro still
        have kept := mem_addDcid_of_mem (retireDcids wrap retirePriorTo retiredPathIds (ids.sees seq)).1 remaining still
        rw [failed] at kept
        exact gone kept
      have announces := addDcid_queue entry (retireDcids wrap retirePriorTo retiredPathIds (ids.sees seq)).1 left
      rw [failed] at announces
      obtain ⟨old, member, rfl⟩ := mem_activeDcids.mp was
      rw [split] at member
      rcases List.mem_append.mp member with taken | stays
      · have queued := every old taken
        rw [← queue, ← announces] at queued
        exact queued
      · exact absurd (mem_activeDcids.mpr ⟨old, stays, rfl⟩) takenOut
  · refine iff_of_true ?_ fun does => absurd does retires
    intro error next reported failed active was gone
    refine absurd was (fun was => gone ?_)
    rcases newDcid_spec cid seq resetToken retirePriorTo wrap ids retiredPathIds with
      ⟨retireDcidSeqs, _, same⟩ | ⟨fresh, _, called⟩ | ⟨zeroLength, fresh, larger, bound, _⟩
    · rw [failed] at same
      cases same
      exact was
    · have unlike : ∀ old ∈ (ids.sees seq).dcids.inner,
          old.seq ≠ (⟨cid, seq, some resetToken, none⟩ : ConnectionIdEntry).seq := fresh.sees
      have before : active ∈ (ids.sees seq).activeDcids := was
      have kept := mem_addDcid_of_mem ⟨ids.retireDcidSeqs, retiredPathIds, none⟩ unlike before
      rw [← called, failed] at kept
      exact kept
    · exact absurd ⟨zeroLength, fresh, larger, bound⟩ retires

/-- Whatever was called, `retire_dcid` is atomic unless it finds its identifier with the queue full, and a failing
`new_dcid` takes out no identifier that it does not queue exactly where those to be retired fit. -/
theorem retire_dcid_atomic (limit : Nat) (scid : List UInt8) (pathId : Nat) (resetToken : Option (BitVec 128))
    (calls : List IdentifierCall) : ∃ ids, identifierMachine.run (new limit scid pathId resetToken) calls = some ids ∧
      (∀ seq, ids.RetiresAtomically seq ↔ ¬ ids.Overfull seq) ∧ ∀ cid seq resetToken retirePriorTo wrap retiredPathIds,
        (∀ error next reported, newDcid cid seq resetToken retirePriorTo wrap (ids, retiredPathIds) =
            .error error (next, reported) → Queues next ids) ↔ (ids.Retires cid seq retirePriorTo →
            (gathered ids.retireDcidSeqs (ids.toRetire retirePriorTo wrap)).card ≤ ids.retireDcidSeqs.capacity) := by
  have preserved (state : ConnectionIdentifiers) (call : IdentifierCall) (retirable : state.Retirable) :
      ∃ next, identifierMachine.step state call = some next ∧ next.Retirable := retirable.step call
  obtain ⟨ids, reached, retirable⟩ :=
    identifierMachine.run_total preserved (new_retirable limit scid pathId resetToken) calls
  exact ⟨ids, reached, retiresAtomically_iff retirable,
    fun cid seq token retirePriorTo wrap retiredPathIds => newDcid_queues_iff retirable cid token retiredPathIds⟩

def retirements : List IdentifierCall := (List.range 6).flatMap fun count =>
    [.dcid (.newDcid [UInt8.ofNat count] (count + 1) 7 0 2 []), .dcid (.retireDcid count)]

/-- The seventh one fails, and its identifier is gone. -/
theorem retirement_lost : ∃ ids error next,
    identifierMachine.run (new 2 [9] 0 none) (retirements ++ [.dcid (.newDcid [6] 7 7 0 2 [])]) = some ids ∧
      retireDcid 6 ids = .error error next ∧ 6 ∈ ids.activeDcids ∧ 6 ∉ next.activeDcids ∧
        6 ∉ next.retireDcidSeqs.inner := ⟨_, .idLimit, _, rfl, rfl, by decide, by decide, by decide⟩

end Atomic

end Quiche.ConnectionIdentifiers
