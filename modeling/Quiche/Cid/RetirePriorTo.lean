import Quiche.Cid.Advertise

namespace Quiche.ConnectionIdentifiers

open Data

variable {ids : ConnectionIdentifiers} {retiredPathIds : List (Nat × Nat)}

section Drain

variable {retired : ConnectionIdSeqSet} {entries : List ConnectionIdEntry}

/-- The identifier is queued for retirement, and the path that used it is reported. -/
def Reports (retired : ConnectionIdSeqSet) (retiredPathIds : List (Nat × Nat)) (entry : ConnectionIdEntry) : Prop :=
  entry.seq ∈ retired.inner ∧ ∀ pid, entry.pathId = some pid → (entry.seq, pid) ∈ retiredPathIds

theorem mem_of_insert {next : ConnectionIdSeqSet} {seq : Nat} (inserted : retired.insert seq = .ok next) :
    seq ∈ next.inner ∧ ∀ other ∈ retired.inner, other ∈ next.inner := by
  rw [ConnectionIdSeqSet.insert] at inserted
  split at inserted
  · contradiction
  · cases inserted
    exact ⟨List.mem_insert_self, fun other member => List.mem_insert_of_mem member⟩

theorem drain_reports (finished : (drain retired retiredPathIds entries).failure = none) :
    (∀ entry ∈ entries, Reports (drain retired retiredPathIds entries).retired
      (drain retired retiredPathIds entries).retiredPathIds entry) ∧
    ∀ entry, Reports retired retiredPathIds entry → Reports (drain retired retiredPathIds entries).retired
        (drain retired retiredPathIds entries).retiredPathIds entry := by
  induction entries generalizing retired retiredPathIds with
  | nil => exact ⟨by simp, fun entry reported => reported⟩
  | cons entry rest ih =>
    rw [drain] at finished ⊢
    cases inserted : retired.insert entry.seq with
    | error reason => simp [inserted] at finished
    | ok next =>
      simp only [inserted] at finished ⊢
      obtain ⟨restReported, kept⟩ := ih finished
      obtain ⟨self, others⟩ := mem_of_insert inserted
      refine ⟨List.forall_mem_cons.mpr ⟨kept entry ⟨self, ?_⟩, restReported⟩, ?_⟩
      · intro pid bound
        simp [bound]
      · intro other reported
        refine kept other ⟨others _ reported.1, fun pid bound => ?_⟩
        have member := reported.2 pid bound
        cases entry.pathId with
        | none => exact member
        | some _ => exact List.mem_append_left _ member

end Drain

section NewDcid

variable {cid : List UInt8} {seq retirePriorTo wrap : Nat} {resetToken : BitVec 128}

/-- Neither the identifier nor its sequence number is known. -/
def Fresh (ids : ConnectionIdentifiers) (cid : List UInt8) (seq : Nat) : Prop :=
  ∀ entry ∈ ids.dcids.inner, entry.cid ≠ cid ∧ entry.seq ≠ seq

def sees (ids : ConnectionIdentifiers) (seq : Nat) : ConnectionIdentifiers :=
  { ids with largestDestinationSeq := max ids.largestDestinationSeq seq }

/-- How `new_dcid` ends: with the destination identifiers as they were, or by storing
the new one, after it has retired others or not. -/
inductive NewDcid (ids : ConnectionIdentifiers) (retiredPathIds : List (Nat × Nat))
    (entry : ConnectionIdEntry) (retirePriorTo wrap : Nat) :
    EStateM.Result Error (ConnectionIdentifiers × List (Nat × Nat)) Unit → Prop where
  | kept {result : EStateM.Result Error (ConnectionIdentifiers × List (Nat × Nat)) Unit}
      (dcids : (after result).1.dcids = ids.dcids)
      (largest : (after result).1.largestPeerRetirePriorTo = ids.largestPeerRetirePriorTo) :
      NewDcid ids retiredPathIds entry retirePriorTo wrap result
  | stored (fresh : ids.Fresh entry.cid entry.seq)
      (current : ids.largestPeerRetirePriorTo ≤ entry.seq) :
      NewDcid ids retiredPathIds entry retirePriorTo wrap
        (addDcid entry ⟨ids.retireDcidSeqs, retiredPathIds, none⟩ (ids.sees entry.seq))
  | retired (active : ids.zeroLengthDcid = false) (fresh : ids.Fresh entry.cid entry.seq)
      (larger : ids.largestPeerRetirePriorTo < retirePriorTo) (bound : retirePriorTo ≤ entry.seq) :
      NewDcid ids retiredPathIds entry retirePriorTo wrap
        (addDcid entry (retireDcids wrap retirePriorTo retiredPathIds (ids.sees entry.seq)).1
          (retireDcids wrap retirePriorTo retiredPathIds (ids.sees entry.seq)).2)

theorem markRetireDcidSeq_frame (seq : Nat) (retire : Bool) (ids : ConnectionIdentifiers) :
    (after (markRetireDcidSeq seq retire ids)).dcids = ids.dcids ∧
      (after (markRetireDcidSeq seq retire ids)).largestPeerRetirePriorTo = ids.largestPeerRetirePriorTo := by
  rw [markRetireDcidSeq]
  split
  · split <;> exact ⟨rfl, rfl⟩
  · exact ⟨rfl, rfl⟩

section

variable (cid : List UInt8) (seq : Nat) (resetToken : BitVec 128) (retirePriorTo wrap : Nat)
  (ids : ConnectionIdentifiers) (retiredPathIds : List (Nat × Nat))

theorem newDcid_spec :
    (∃ retireDcidSeqs, (retireDcidSeqs = ids.retireDcidSeqs ∨ ids.retireDcidSeqs.insert seq = .ok retireDcidSeqs) ∧
          after (newDcid cid seq resetToken retirePriorTo wrap (ids, retiredPathIds)) =
            ({ ids with retireDcidSeqs }, retiredPathIds)) ∨ (ids.Fresh cid seq ∧ ids.largestPeerRetirePriorTo ≤ seq ∧
        newDcid cid seq resetToken retirePriorTo wrap (ids, retiredPathIds) =
          addDcid ⟨cid, seq, some resetToken, none⟩ ⟨ids.retireDcidSeqs, retiredPathIds, none⟩ (ids.sees seq)) ∨
      (ids.zeroLengthDcid = false ∧ ids.Fresh cid seq ∧ ids.largestPeerRetirePriorTo < retirePriorTo ∧
        retirePriorTo ≤ seq ∧ newDcid cid seq resetToken retirePriorTo wrap (ids, retiredPathIds) =
          addDcid ⟨cid, seq, some resetToken, none⟩
            (retireDcids wrap retirePriorTo retiredPathIds (ids.sees seq)).1
            (retireDcids wrap retirePriorTo retiredPathIds (ids.sees seq)).2) := by
  rw [newDcid]
  split
  · exact .inl ⟨ids.retireDcidSeqs, .inl rfl, rfl⟩
  rename_i active
  split
  · split <;> exact .inl ⟨ids.retireDcidSeqs, .inl rfl, rfl⟩
  rename_i absent
  have fresh : ids.Fresh cid seq := by
    simpa [Fresh] using absent
  split
  · exact .inl ⟨ids.retireDcidSeqs, .inl rfl, rfl⟩
  rename_i bound
  split
  · left
    rw [markRetireDcidSeq, if_pos rfl]
    cases ids.retireDcidSeqs.insert seq with
    | error reason => exact ⟨ids.retireDcidSeqs, .inl rfl, rfl⟩
    | ok retireDcidSeqs => exact ⟨retireDcidSeqs, .inr rfl, rfl⟩
  rename_i current
  dsimp only
  split
  · rename_i larger
    exact .inr (.inr ⟨Bool.eq_false_iff.mpr active, fresh, larger, Nat.not_lt.mp bound, rfl⟩)
  · exact .inr (.inl ⟨fresh, Nat.not_lt.mp current, rfl⟩)

theorem newDcid_cases : NewDcid ids retiredPathIds ⟨cid, seq, some resetToken, none⟩ retirePriorTo wrap
      (newDcid cid seq resetToken retirePriorTo wrap (ids, retiredPathIds)) := by
  rcases newDcid_spec cid seq resetToken retirePriorTo wrap ids retiredPathIds with
    ⟨retireDcidSeqs, _, same⟩ | ⟨fresh, current, called⟩ | ⟨active, fresh, larger, bound, called⟩
  · exact .kept (by rw [same]) (by rw [same])
  · rw [called]
    exact .stored fresh current
  · rw [called]
    exact .retired active fresh larger bound

end

theorem addDcid_spec {entry : ConnectionIdEntry} (drained : Drained)
    (fresh : ∀ old ∈ ids.dcids.inner, old.seq ≠ entry.seq) :
    (after (addDcid entry drained ids)).1.largestPeerRetirePriorTo = ids.largestPeerRetirePriorTo ∧
      (∀ stored ∈ (after (addDcid entry drained ids)).1.dcids.inner, stored ∈ ids.dcids.inner ∨ stored = entry) ∧
      ∀ next reported, addDcid entry drained ids = .ok () (next, reported) →
        drained.failure = none ∧ reported = drained.retiredPathIds ∧ next.retireDcidSeqs = ids.retireDcidSeqs ∧
          ∀ old ∈ ids.dcids.inner, old ∈ next.dcids.inner := by
  rw [addDcid]
  split
  · exact ⟨rfl, fun stored member => .inl member, by simp⟩
  · rename_i dcids inserted
    have appended := ConnectionIdVecDeque.insert_cases fresh inserted
    subst appended
    have among : ∀ stored ∈ ids.dcids.inner ++ [entry], stored ∈ ids.dcids.inner ∨ stored = entry := by
      simp
    split
    · exact ⟨rfl, among, by simp⟩
    · rename_i finished
      refine ⟨rfl, among, fun next reported same => ?_⟩
      cases same
      exact ⟨finished, rfl, rfl, fun old member => List.mem_append_left _ member⟩

end NewDcid

section Honours

/-- No destination identifier is left below the largest number that the peer asked to retire prior to. -/
def Honours (ids : ConnectionIdentifiers) : Prop := ∀ entry ∈ ids.dcids.inner, ids.largestPeerRetirePriorTo ≤ entry.seq

/-- The request to retire is honoured, and each identifier that goes is reported. -/
structure Honoured (before next : ConnectionIdentifiers) (retiredPathIds : List (Nat × Nat)) : Prop where
  honours : next.Honours
  reports : ∀ entry ∈ before.dcids.inner, entry ∉ next.dcids.inner → Reports next.retireDcidSeqs retiredPathIds entry

/-- The identifiers below the number stand in front of the others. -/
def Ordered (ids : ConnectionIdentifiers) (retirePriorTo : Nat) : Prop :=
  ∃ count, Partitioned (fun entry : ConnectionIdEntry => entry.seq < retirePriorTo) ids.dcids.inner count

variable {cid : List UInt8} {seq retirePriorTo : Nat} {resetToken : BitVec 128}

theorem Ordered.retireDcids_honours (ordered : ids.Ordered retirePriorTo) (wrap : Nat)
    (retiredPathIds : List (Nat × Nat)) : (retireDcids wrap retirePriorTo retiredPathIds ids).2.Honours := by
  obtain ⟨count, partitioned⟩ := ordered
  intro entry member
  have remaining : entry ∈ ids.dcids.inner.drop count := by
    rw [← partitioned.ringPartitionPoint_eq wrap]
    exact member
  have later := partitioned.after entry remaining
  rw [decide_eq_false_iff_not] at later
  exact Nat.not_lt.mp later

theorem Honours.of_frame {next : ConnectionIdentifiers} (honours : ids.Honours) (dcids : next.dcids = ids.dcids)
    (largest : next.largestPeerRetirePriorTo = ids.largestPeerRetirePriorTo) : next.Honours := by
  rw [Honours, dcids, largest]
  exact honours

theorem Honours.markRetireDcidSeq (honours : ids.Honours) (seq : Nat) (retire : Bool) :
    (after (markRetireDcidSeq seq retire ids)).Honours :=
  honours.of_frame (markRetireDcidSeq_frame seq retire ids).1 (markRetireDcidSeq_frame seq retire ids).2

theorem Honours.addDcid {entry : ConnectionIdEntry} (honours : ids.Honours)
    (fresh : ∀ old ∈ ids.dcids.inner, old.seq ≠ entry.seq)
    (current : ids.largestPeerRetirePriorTo ≤ entry.seq) (drained : Drained) :
    (after (addDcid entry drained ids)).1.Honours := by
  obtain ⟨largest, among, _⟩ := addDcid_spec drained fresh
  intro stored member
  rw [largest]
  cases among stored member with
  | inl old => exact honours stored old
  | inr same =>
    subst same
    exact current

theorem Fresh.retireDcids (fresh : ids.Fresh cid seq) (wrap : Nat) (retiredPathIds : List (Nat × Nat)) :
    ∀ old ∈ (retireDcids wrap retirePriorTo retiredPathIds (ids.sees seq)).2.dcids.inner, old.seq ≠ seq :=
  fun old member => (fresh old (List.mem_of_mem_drop member)).2

theorem Fresh.sees (fresh : ids.Fresh cid seq) : ∀ old ∈ (ids.sees seq).dcids.inner, old.seq ≠ seq :=
  fun old member => (fresh old member).2

theorem mem_or_reports_retireDcids {wrap : Nat} {entry : ConnectionIdEntry}
    (finished : (retireDcids wrap retirePriorTo retiredPathIds ids).1.failure = none)
    (member : entry ∈ ids.dcids.inner) : entry ∈ (retireDcids wrap retirePriorTo retiredPathIds ids).2.dcids.inner ∨
      Reports (retireDcids wrap retirePriorTo retiredPathIds ids).2.retireDcidSeqs
        (retireDcids wrap retirePriorTo retiredPathIds ids).1.retiredPathIds entry := by
  let index := ringPartitionPoint (fun entry => entry.seq < retirePriorTo) wrap ids.dcids.inner
  rw [← List.take_append_drop index ids.dcids.inner] at member
  cases List.mem_append.mp member with
  | inl taken => exact .inr ((drain_reports finished).1 entry taken)
  | inr remaining => exact .inl remaining

section Outcome

variable {entry : ConnectionIdEntry} {wrap : Nat}
  {result : EStateM.Result Error (ConnectionIdentifiers × List (Nat × Nat)) Unit}

theorem NewDcid.honours (outcome : NewDcid ids retiredPathIds entry retirePriorTo wrap result) (honours : ids.Honours)
    (ordered : ids.zeroLengthDcid = false → ids.Fresh entry.cid entry.seq →
      ids.largestPeerRetirePriorTo < retirePriorTo → retirePriorTo ≤ entry.seq →
      ids.Ordered retirePriorTo) : (after result).1.Honours := by
  cases outcome with
  | kept dcids largest => exact honours.of_frame dcids largest
  | stored fresh current =>
    have seen : (ids.sees entry.seq).Honours := honours
    exact seen.addDcid fresh.sees current _
  | retired active fresh larger bound =>
    have seen : (ids.sees entry.seq).Ordered retirePriorTo := ordered active fresh larger bound
    have kept := seen.retireDcids_honours wrap retiredPathIds
    exact kept.addDcid (fresh.retireDcids wrap retiredPathIds) bound _

theorem NewDcid.reports {next : ConnectionIdentifiers} {reported : List (Nat × Nat)}
    (outcome : NewDcid ids retiredPathIds entry retirePriorTo wrap (.ok () (next, reported))) :
    ∀ old ∈ ids.dcids.inner, old ∉ next.dcids.inner → Reports next.retireDcidSeqs reported old := by
  intro old member removed
  generalize same : EStateM.Result.ok () (next, reported) = result at outcome
  cases outcome with
  | kept dcids largest =>
    subst same
    change next.dcids = ids.dcids at dcids
    rw [dcids] at removed
    contradiction
  | stored fresh current =>
    obtain ⟨_, _, accepted⟩ := addDcid_spec ⟨ids.retireDcidSeqs, retiredPathIds, none⟩ fresh.sees
    obtain ⟨_, _, _, kept⟩ := accepted next reported same.symm
    exact absurd (kept old member) removed
  | retired active fresh larger bound =>
    obtain ⟨_, _, accepted⟩ := addDcid_spec
      (retireDcids wrap retirePriorTo retiredPathIds (ids.sees entry.seq)).1
      (fresh.retireDcids wrap retiredPathIds)
    obtain ⟨finished, rfl, retireDcidSeqs, kept⟩ := accepted next reported same.symm
    rw [retireDcidSeqs]
    cases mem_or_reports_retireDcids finished member with
    | inl remains => exact absurd (kept old remains) removed
    | inr reports => exact reports

end Outcome

end Honours

section Runs

inductive DcidCall where
  | newDcid (cid : List UInt8) (seq : Nat) (resetToken : BitVec 128) (retirePriorTo wrap : Nat)
      (retiredPathIds : List (Nat × Nat))
  | retireDcid (seq : Nat)
  | linkDcidToPathId (dcidSeq pathId : Nat)
  | markRetireDcidSeq (dcidSeq : Nat) (retire : Bool)

def dcidMachine : Machine ConnectionIdentifiers DcidCall where
  step ids
    | .newDcid cid seq resetToken retirePriorTo wrap retiredPathIds =>
      some (after (newDcid cid seq resetToken retirePriorTo wrap (ids, retiredPathIds))).1
    | .retireDcid seq => some (after (retireDcid seq ids))
    | .linkDcidToPathId dcidSeq pathId => some (after (linkDcidToPathId dcidSeq pathId ids))
    | .markRetireDcidSeq dcidSeq retire => some (after (markRetireDcidSeq dcidSeq retire ids))

def start (limit : Nat) (scid : List UInt8) (pathId : Nat) (resetToken : Option (BitVec 128)) :
    Option (List UInt8 × Option (BitVec 128) × Option Nat) → ConnectionIdentifiers
  | none => new limit scid pathId resetToken
  | some (dcid, dcidToken, dcidPathId) =>
    (new limit scid pathId resetToken).setInitialDcid dcid dcidToken dcidPathId

/-- When a frame asks to retire identifiers, those stand in front of the others. -/
def ArrivesInOrder (ids : ConnectionIdentifiers) : DcidCall → Prop
  | .newDcid cid seq _ retirePriorTo _ _ =>
    ids.zeroLengthDcid = false → ids.Fresh cid seq →
      ids.largestPeerRetirePriorTo < retirePriorTo → retirePriorTo ≤ seq → ids.Ordered retirePriorTo
  | _ => True

theorem start_honours (limit : Nat) (scid : List UInt8) (pathId : Nat)
    (resetToken : Option (BitVec 128)) (dcid : Option (List UInt8 × Option (BitVec 128) × Option Nat)) :
    (start limit scid pathId resetToken dcid).Honours := by
  cases dcid <;> exact fun entry member => Nat.zero_le _

theorem mem_update_linkTo (pathId seq : Nat) (entries : List ConnectionIdEntry) :
    ∀ entry ∈ ConnectionIdVecDeque.update (·.linkTo pathId) seq entries, ∃ old ∈ entries, entry.seq = old.seq := by
  induction entries with
  | nil => simp [ConnectionIdVecDeque.update]
  | cons head rest ih =>
    rw [ConnectionIdVecDeque.update]
    split
    · intro entry member
      cases List.mem_cons.mp member with
      | inl same =>
        subst same
        exact ⟨head, List.mem_cons_self, rfl⟩
      | inr member => exact ⟨entry, List.mem_cons_of_mem _ member, rfl⟩
    · intro entry member
      cases List.mem_cons.mp member with
      | inl same =>
        subst same
        exact ⟨entry, List.mem_cons_self, rfl⟩
      | inr member =>
        obtain ⟨old, found, same⟩ := ih entry member
        exact ⟨old, List.mem_cons_of_mem _ found, same⟩

theorem retireDcid_frame (seq : Nat) (ids : ConnectionIdentifiers) :
    (after (retireDcid seq ids)).largestPeerRetirePriorTo = ids.largestPeerRetirePriorTo ∧
      ((after (retireDcid seq ids)).dcids = ids.dcids ∨ (after (retireDcid seq ids)).dcids =
          { ids.dcids with inner := ids.dcids.inner.eraseP fun entry => entry.seq = seq }) := by
  rw [retireDcid, ConnectionIdVecDeque.remove]
  split
  · exact ⟨rfl, .inl rfl⟩
  · by_cases last : ids.dcids.inner.length ≤ 1
    · rw [if_pos last]
      exact ⟨rfl, .inl rfl⟩
    · rw [if_neg last]
      cases found : ids.dcids.get seq with
      | none => exact ⟨rfl, .inr rfl⟩
      | some entry =>
        obtain ⟨dcids, largest⟩ := markRetireDcidSeq_frame seq true { ids with
          dcids := { ids.dcids with inner := ids.dcids.inner.eraseP fun entry => entry.seq = seq } }
        dsimp only
        split <;> rename_i marked <;> rw [marked] at dcids largest <;> exact ⟨largest, .inr dcids⟩

theorem Honours.retireDcid (honours : ids.Honours) (seq : Nat) : (after (retireDcid seq ids)).Honours := by
  obtain ⟨largest, kept | erased⟩ := retireDcid_frame seq ids
  · exact honours.of_frame kept largest
  · intro entry member
    rw [erased] at member
    rw [largest]
    exact honours entry (List.mem_of_mem_eraseP member)

theorem Honours.step (honours : ids.Honours) (call : DcidCall) (inOrder : ids.ArrivesInOrder call) :
    ∃ next, dcidMachine.step ids call = some next ∧ next.Honours := by
  cases call with
  | newDcid cid seq resetToken retirePriorTo wrap retiredPathIds =>
    exact ⟨_, rfl, (newDcid_cases cid seq resetToken retirePriorTo wrap ids retiredPathIds).honours honours inOrder⟩
  | retireDcid seq => exact ⟨_, rfl, honours.retireDcid seq⟩
  | linkDcidToPathId dcidSeq pathId =>
    refine ⟨_, rfl, ?_⟩
    rw [linkDcidToPathId]
    split
    · intro entry member
      obtain ⟨old, found, same⟩ := mem_update_linkTo pathId dcidSeq ids.dcids.inner entry member
      rw [same]
      exact honours old found
    · exact honours
  | markRetireDcidSeq dcidSeq retire => exact ⟨_, rfl, honours.markRetireDcidSeq dcidSeq retire⟩

/-- In a run in which every larger Retire Prior To finds the queue in order, each new
identifier that is accepted leaves none that is to be retired. -/
theorem retire_prior_to_honoured (limit : Nat) (scid : List UInt8) (pathId : Nat)
    (resetToken : Option (BitVec 128)) (dcid : Option (List UInt8 × Option (BitVec 128) × Option Nat))
    (calls : List DcidCall)
    (inOrder : dcidMachine.Guarded ArrivesInOrder (start limit scid pathId resetToken dcid) calls) :
    ∃ ids, dcidMachine.run (start limit scid pathId resetToken dcid) calls = some ids ∧
      ∀ cid seq token retirePriorTo wrap retiredPathIds next reported,
        ids.ArrivesInOrder (.newDcid cid seq token retirePriorTo wrap retiredPathIds) →
        newDcid cid seq token retirePriorTo wrap (ids, retiredPathIds) = .ok () (next, reported) →
        Honoured ids next reported := by
  obtain ⟨ids, completed, honours⟩ := dcidMachine.run_total_of_guarded
    (fun ids call honours inOrder => Honours.step honours call inOrder)
    (start_honours limit scid pathId resetToken dcid) inOrder
  refine ⟨ids, completed, ?_⟩
  intro cid seq token retirePriorTo wrap retiredPathIds next reported arrives accepted
  have outcome := newDcid_cases cid seq token retirePriorTo wrap ids retiredPathIds
  rw [accepted] at outcome
  exact ⟨outcome.honours honours arrives, outcome.reports⟩

/-- The identifiers arrive in order: the first one is retired when the third comes. -/
theorem retire_prior_to_honoured_in_order :
    ∃ ids next reported, dcidMachine.run (start 2 [9] 0 none (some ([8], none, some 0)))
        [.newDcid [1] 1 7 0 1 []] = some ids ∧
      newDcid [2] 2 8 1 2 (ids, []) = .ok () (next, reported) ∧ Honoured ids next reported := by
  obtain ⟨ids, completed, honoured⟩ := retire_prior_to_honoured 2 [9] 0 none
    (some ([8], none, some 0)) [.newDcid [1] 1 7 0 1 []]
    ⟨fun _ _ larger => absurd larger (Nat.not_lt_zero _), fun _ _ => trivial⟩
  cases completed
  refine ⟨_, _, _, rfl, rfl, honoured [2] 2 8 1 2 [] _ _ ?_ rfl⟩
  exact fun _ _ _ _ => ⟨1, by decide, by decide, by decide⟩

/-- The third identifier overtakes the first. When all before the second are to be
retired, the search stops at the third one, and the first stays. -/
theorem retire_prior_to_missed : ∃ ids next reported, dcidMachine.run (start 4 [9] 0 none (some ([8], none, some 0)))
        [.newDcid [3] 3 7 0 1 [], .newDcid [1] 1 7 0 2 []] = some ids ∧
      newDcid [4] 4 7 2 3 (ids, []) = .ok () (next, reported) ∧ ¬ Honoured ids next reported := by
  refine ⟨_, _, _, rfl, rfl, ?_⟩
  intro honoured
  exact absurd (honoured.honours ⟨[1], 1, some 7, none⟩ (by decide)) (by decide)

end Runs

end Quiche.ConnectionIdentifiers
