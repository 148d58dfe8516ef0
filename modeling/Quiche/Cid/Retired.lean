import Quiche.Cid.RetirePriorTo

namespace Quiche.ConnectionIdentifiers

open Data

variable {ids : ConnectionIdentifiers}

def activeDcids (ids : ConnectionIdentifiers) : List Nat := ids.dcids.inner.map (·.seq)

section Active

variable {retiredPathIds : List (Nat × Nat)} {entry : ConnectionIdEntry} {seq retirePriorTo wrap : Nat}

theorem mem_activeDcids : seq ∈ ids.activeDcids ↔ ∃ entry ∈ ids.dcids.inner, entry.seq = seq := List.mem_map

section

variable (drained : Drained) (fresh : ∀ old ∈ ids.dcids.inner, old.seq ≠ entry.seq)

include fresh

theorem addDcid_activeDcids : (after (addDcid entry drained ids)).1.activeDcids = ids.activeDcids ∨
      (after (addDcid entry drained ids)).1.activeDcids = ids.activeDcids ++ [entry.seq] := by
  rw [addDcid]
  split
  · exact .inl rfl
  · rename_i dcids inserted
    have appended := ConnectionIdVecDeque.insert_cases fresh inserted
    subst appended
    right
    split <;> simp [after, activeDcids]

theorem mem_addDcid
    (active : seq ∈ (after (addDcid entry drained ids)).1.activeDcids) : seq ∈ ids.activeDcids ∨ seq = entry.seq := by
  rcases addDcid_activeDcids drained fresh with same | grown
  · rw [same] at active
    exact .inl active
  · rw [grown, List.mem_append, List.mem_singleton] at active
    exact active

theorem mem_addDcid_of_mem
    (active : seq ∈ ids.activeDcids) : seq ∈ (after (addDcid entry drained ids)).1.activeDcids := by
  rcases addDcid_activeDcids drained fresh with same | grown
  · rw [same]
    exact active
  · rw [grown]
    exact List.mem_append_left _ active

end

theorem Ordered.lt_of_removed (ordered : ids.Ordered retirePriorTo) (active : seq ∈ ids.activeDcids)
    (removed : seq ∉ (retireDcids wrap retirePriorTo retiredPathIds ids).2.activeDcids) : seq < retirePriorTo := by
  obtain ⟨count, partitioned⟩ := ordered
  obtain ⟨entry, member, rfl⟩ := mem_activeDcids.mp active
  rw [← List.take_append_drop count ids.dcids.inner] at member
  rcases List.mem_append.mp member with taken | remaining
  · exact of_decide_eq_true (partitioned.before entry taken)
  · refine absurd (mem_activeDcids.mpr ⟨entry, ?_, rfl⟩) removed
    rw [retireDcids, partitioned.ringPartitionPoint_eq wrap]
    exact remaining

theorem mem_of_mem_retireDcids (active : seq ∈ (retireDcids wrap retirePriorTo retiredPathIds ids).2.activeDcids) :
    seq ∈ ids.activeDcids := by
  obtain ⟨entry, member, same⟩ := mem_activeDcids.mp active
  exact mem_activeDcids.mpr ⟨entry, List.mem_of_mem_drop member, same⟩

/-- What `new_dcid` does to the sequence numbers in use: it adds its own at most, and in
order it removes only what lies below the Retire Prior To that it records. -/
structure ActiveFrame (before next : ConnectionIdentifiers) (seq : Nat) : Prop where
  larger : before.largestPeerRetirePriorTo ≤ next.largestPeerRetirePriorTo
  added : ∀ other ∈ next.activeDcids, other ∈ before.activeDcids ∨ (other = seq ∧ before.largestPeerRetirePriorTo ≤ seq)
  removed : ∀ other ∈ before.activeDcids, other ∉ next.activeDcids → other < next.largestPeerRetirePriorTo

theorem NewDcid.activeFrame {result : EStateM.Result Error (ConnectionIdentifiers × List (Nat × Nat)) Unit}
    (outcome : NewDcid ids retiredPathIds entry retirePriorTo wrap result)
    (ordered : ids.zeroLengthDcid = false → ids.Fresh entry.cid entry.seq →
      ids.largestPeerRetirePriorTo < retirePriorTo → retirePriorTo ≤ entry.seq →
      ids.Ordered retirePriorTo) : ActiveFrame ids (after result).1 entry.seq := by
  cases outcome with
  | kept dcids largest =>
    have same : (after result).1.activeDcids = ids.activeDcids := by
      rw [activeDcids, dcids, activeDcids]
    constructor
    · exact Nat.le_of_eq largest.symm
    · exact fun other active => .inl (same ▸ active)
    · exact fun other active inactive => absurd (same ▸ active) inactive
  | stored fresh current =>
    constructor
    · exact Nat.le_of_eq (addDcid_spec _ fresh.sees).1.symm
    · exact fun other active => (mem_addDcid _ fresh.sees active).imp_right fun same => ⟨same, current⟩
    · exact fun other active inactive => absurd (mem_addDcid_of_mem _ fresh.sees active) inactive
  | retired active fresh larger bound =>
    have seen : (ids.sees entry.seq).Ordered retirePriorTo := ordered active fresh larger bound
    have remaining : ∀ old ∈ (retireDcids wrap retirePriorTo retiredPathIds
        (ids.sees entry.seq)).2.dcids.inner, old.seq ≠ entry.seq := fresh.retireDcids wrap retiredPathIds
    have largest := (addDcid_spec
      (retireDcids wrap retirePriorTo retiredPathIds (ids.sees entry.seq)).1 remaining).1
    constructor
    · rw [largest]
      exact Nat.le_of_lt larger
    · intro other active
      rcases mem_addDcid _ remaining active with earlier | same
      · have before : other ∈ (ids.sees entry.seq).activeDcids := mem_of_mem_retireDcids earlier
        exact .inl before
      · exact .inr ⟨same, Nat.le_trans (Nat.le_of_lt larger) bound⟩
    · intro other active inactive
      rw [largest]
      exact seen.lt_of_removed active fun kept => inactive (mem_addDcid_of_mem _ remaining kept)

theorem mem_of_mem_retireDcid {retiring : Nat}
    (active : seq ∈ (after (retireDcid retiring ids)).activeDcids) : seq ∈ ids.activeDcids := by
  rcases (retireDcid_frame retiring ids).2 with kept | erased
  · rw [activeDcids, kept] at active
    exact active
  · obtain ⟨entry, member, same⟩ := mem_activeDcids.mp active
    rw [erased] at member
    exact mem_activeDcids.mpr ⟨entry, List.mem_of_mem_eraseP member, same⟩

theorem seqs_update {change : ConnectionIdEntry → ConnectionIdEntry}
    (kept : ∀ entry, entry.seq = seq → (change entry).seq = seq) (entries : List ConnectionIdEntry) :
    (ConnectionIdVecDeque.update change seq entries).map (·.seq) = entries.map (·.seq) := by
  induction entries with
  | nil => rfl
  | cons head rest ih =>
    rw [ConnectionIdVecDeque.update]
    split
    · rename_i same
      rw [List.map_cons, kept head same, List.map_cons, same]
    · rw [List.map_cons, ih, List.map_cons]

theorem seqs_update_linkTo (pathId seq : Nat) (entries : List ConnectionIdEntry) :
    (ConnectionIdVecDeque.update (·.linkTo pathId) seq entries).map (·.seq) = entries.map (·.seq) := by
  apply seqs_update
  exact fun _ same => same

theorem linkDcidToPathId_activeDcids (dcidSeq pathId : Nat) :
    (after (linkDcidToPathId dcidSeq pathId ids)).activeDcids = ids.activeDcids := by
  rw [linkDcidToPathId]
  split
  · exact seqs_update_linkTo pathId dcidSeq ids.dcids.inner
  · rfl

end Active

/-- The identifiers with what happened to them so far: the sequence numbers that were
taken out of the queue, and those of them that `retire_dcid` took out. -/
structure DcidHistory where
  ids : ConnectionIdentifiers
  removed : List Nat
  retired : List Nat

namespace DcidHistory

def lost (before next : ConnectionIdentifiers) : List Nat := before.activeDcids.filter fun seq => seq ∉ next.activeDcids

def record (history : DcidHistory) (next : ConnectionIdentifiers) : DcidCall → DcidHistory
  | .retireDcid _ =>
    ⟨next, history.removed ++ lost history.ids next, history.retired ++ lost history.ids next⟩
  | _ => ⟨next, history.removed ++ lost history.ids next, history.retired⟩

def machine : Machine DcidHistory DcidCall where
  step history call := (dcidMachine.step history.ids call).map fun next => history.record next call

def start (limit : Nat) (scid : List UInt8) (pathId : Nat) (resetToken : Option (BitVec 128))
    (dcid : List UInt8) (dcidToken : Option (BitVec 128)) (dcidPathId : Option Nat) : DcidHistory :=
  ⟨(new limit scid pathId resetToken).setInitialDcid dcid dcidToken dcidPathId, [], []⟩

/-- No copy of a frame arrives for an identifier that `retire_dcid` took out, unless it
lies below the largest Retire Prior To, and every larger Retire Prior To finds the
queue in order. -/
def Admits (history : DcidHistory) : DcidCall → Prop
  | .newDcid cid seq resetToken retirePriorTo wrap retiredPathIds =>
    (history.ids.largestPeerRetirePriorTo ≤ seq → seq ∉ history.retired) ∧
      history.ids.ArrivesInOrder (.newDcid cid seq resetToken retirePriorTo wrap retiredPathIds)
  | _ => True

/-- A removed identifier is not active, and it is known to be retired. -/
structure Settled (history : DcidHistory) : Prop where
  gone : ∀ seq ∈ history.removed, seq ∉ history.ids.activeDcids
  known : ∀ seq ∈ history.removed, seq < history.ids.largestPeerRetirePriorTo ∨ seq ∈ history.retired

variable {history : DcidHistory} {next : ConnectionIdentifiers} {call : DcidCall}

theorem mem_lost {before : ConnectionIdentifiers} {seq : Nat} :
    seq ∈ lost before next ↔ seq ∈ before.activeDcids ∧ seq ∉ next.activeDcids := by
  simp [lost]

section

variable (settled : history.Settled)

include settled

theorem Settled.record (back : ∀ seq ∈ history.removed, seq ∉ next.activeDcids)
    (larger : history.ids.largestPeerRetirePriorTo ≤ next.largestPeerRetirePriorTo)
    (reason : ∀ seq ∈ lost history.ids next,
      seq < next.largestPeerRetirePriorTo ∨ seq ∈ (history.record next call).retired) :
    (history.record next call).Settled := by
  have nextIds : (history.record next call).ids = next := by cases call <;> rfl
  have removed : (history.record next call).removed = history.removed ++ lost history.ids next := by
    cases call <;> rfl
  have retired : ∀ seq ∈ history.retired, seq ∈ (history.record next call).retired := by
    cases call <;> simp +contextual [DcidHistory.record]
  constructor
  · intro seq member
    rw [removed, List.mem_append] at member
    rw [nextIds]
    rcases member with old | new
    · exact back seq old
    · exact (mem_lost.mp new).2
  · intro seq member
    rw [removed, List.mem_append] at member
    rw [nextIds]
    rcases member with old | new
    · exact (settled.known seq old).imp (fun below => Nat.lt_of_lt_of_le below larger) (retired seq)
    · exact reason seq new

theorem Settled.shrink (fewer : ∀ seq ∈ next.activeDcids, seq ∈ history.ids.activeDcids)
    (larger : history.ids.largestPeerRetirePriorTo ≤ next.largestPeerRetirePriorTo)
    (reason : ∀ seq ∈ lost history.ids next,
      seq < next.largestPeerRetirePriorTo ∨ seq ∈ (history.record next call).retired) :
    (history.record next call).Settled :=
  settled.record (fun seq member active => settled.gone seq member (fewer seq active)) larger reason

theorem Settled.keep (same : next.activeDcids = history.ids.activeDcids)
    (larger : history.ids.largestPeerRetirePriorTo ≤ next.largestPeerRetirePriorTo) :
    (history.record next call).Settled := by
  apply settled.shrink (fun seq active => same ▸ active) larger
  intro seq member
  obtain ⟨active, inactive⟩ := mem_lost.mp member
  exact absurd active (same ▸ inactive)

theorem Settled.newDcid {cid : List UInt8} {seq retirePriorTo wrap : Nat}
    {resetToken : BitVec 128} {retiredPathIds : List (Nat × Nat)}
    (admits : history.Admits (.newDcid cid seq resetToken retirePriorTo wrap retiredPathIds)) : (history.record
      (after (newDcid cid seq resetToken retirePriorTo wrap (history.ids, retiredPathIds))).1
      (.newDcid cid seq resetToken retirePriorTo wrap retiredPathIds)).Settled := by
  obtain ⟨admitted, inOrder⟩ := admits
  obtain ⟨larger, added, removed⟩ :=
    (newDcid_cases cid seq resetToken retirePriorTo wrap history.ids retiredPathIds).activeFrame inOrder
  apply settled.record
  · intro old member active
    rcases added old active with earlier | ⟨rfl, current⟩
    · exact settled.gone old member earlier
    · rcases settled.known old member with below | retired
      · exact absurd below (Nat.not_lt.mpr current)
      · exact admitted current retired
  · exact larger
  · intro old member
    obtain ⟨active, inactive⟩ := mem_lost.mp member
    exact .inl (removed old active inactive)

theorem Settled.step (call : DcidCall) (admits : history.Admits call) :
    ∃ next, machine.step history call = some next ∧ next.Settled := by
  cases call with
  | newDcid cid seq resetToken retirePriorTo wrap retiredPathIds =>
    exact ⟨_, rfl, settled.newDcid admits⟩
  | retireDcid seq =>
    refine ⟨_, rfl, settled.shrink (fun _ => mem_of_mem_retireDcid) ?_ ?_⟩
    · exact Nat.le_of_eq (retireDcid_frame seq history.ids).1.symm
    · exact fun old member => .inr (List.mem_append_right _ member)
  | linkDcidToPathId dcidSeq pathId =>
    refine ⟨_, rfl, settled.keep (linkDcidToPathId_activeDcids dcidSeq pathId) ?_⟩
    rw [linkDcidToPathId]
    split <;> exact Nat.le_refl _
  | markRetireDcidSeq dcidSeq retire =>
    obtain ⟨dcids, largest⟩ := markRetireDcidSeq_frame dcidSeq retire history.ids
    refine ⟨_, rfl, settled.keep ?_ (Nat.le_of_eq largest.symm)⟩
    rw [activeDcids, dcids, activeDcids]

end

/-- A removed identifier never comes back in a run in which no frame is repeated for one
that `retire_dcid` took out, and Retire Prior To finds the queue in order. -/
theorem removed_stay_removed (limit : Nat) (scid : List UInt8) (pathId : Nat)
    (resetToken : Option (BitVec 128)) (dcid : List UInt8) (dcidToken : Option (BitVec 128))
    (dcidPathId : Option Nat) (calls : List DcidCall) (admitted : machine.Guarded Admits
      (start limit scid pathId resetToken dcid dcidToken dcidPathId) calls) :
    ∃ history, machine.run (start limit scid pathId resetToken dcid dcidToken dcidPathId) calls = some history ∧
      ∀ seq ∈ history.removed, seq ∉ history.ids.activeDcids := by
  have initial : (start limit scid pathId resetToken dcid dcidToken dcidPathId).Settled :=
    ⟨by simp [start], by simp [start]⟩
  obtain ⟨history, completed, settled⟩ := machine.run_total_of_guarded
    (fun history call settled admits => Settled.step settled call admits) initial admitted
  exact ⟨history, completed, settled.gone⟩

/-- The first identifier is retired by the third, and a late copy of it is only announced. -/
theorem removed_stay_removed_prior_to : ∃ history, machine.run (start 3 [9] 0 none [8] none (some 0))
        [.newDcid [1] 1 7 0 1 [], .newDcid [2] 2 7 2 2 [], .newDcid [1] 1 7 0 1 []] = some history ∧
      (∀ seq ∈ history.removed, seq ∉ history.ids.activeDcids) ∧ 1 ∈ history.removed := by
  obtain ⟨history, completed, stay⟩ := removed_stay_removed 3 [9] 0 none [8] none (some 0)
    [.newDcid [1] 1 7 0 1 [], .newDcid [2] 2 7 2 2 [], .newDcid [1] 1 7 0 1 []] (by
      refine ⟨⟨by simp [start], fun _ _ larger => absurd larger (Nat.not_lt_zero _)⟩, ?_⟩
      intro first stepped
      cases stepped
      refine ⟨⟨fun _ => by decide, fun _ _ _ _ => ⟨2, by decide, by decide, by decide⟩⟩, ?_⟩
      intro second stepped
      cases stepped
      exact ⟨⟨fun _ => by decide, fun _ _ larger => absurd larger (Nat.not_lt_zero _)⟩, fun _ _ => trivial⟩)
  cases completed
  exact ⟨_, rfl, stay, by decide⟩

/-- `retire_dcid` takes the second identifier out and the peer learns of it, but a
retransmitted copy of its frame puts it back. -/
theorem retired_comes_back : ∃ history, machine.run (start 2 [9] 0 none [8] none (some 0))
        [.newDcid [1] 1 7 0 1 [], .retireDcid 1, .markRetireDcidSeq 1 false,
          .newDcid [1] 1 7 0 1 []] = some history ∧ ¬ ∀ seq ∈ history.removed, seq ∉ history.ids.activeDcids := by
  refine ⟨_, rfl, ?_⟩
  intro stay
  exact stay 1 (by decide) (by decide)

end DcidHistory

end Quiche.ConnectionIdentifiers
