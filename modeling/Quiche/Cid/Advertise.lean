import Quiche.Cid
import Quiche.Data.Machine

namespace Quiche

open Data

namespace ConnectionIdVecDeque

variable {deque : ConnectionIdVecDeque} {entry : ConnectionIdEntry} {seq : Nat}

theorem mem_of_get (found : deque.get seq = some entry) : entry ∈ deque.inner ∧ entry.seq = seq :=
  ⟨List.mem_of_find?_eq_some found, by simpa using List.find?_some found⟩

theorem get_append {added : ConnectionIdEntry} (found : deque.get seq = some entry) :
    get { deque with inner := deque.inner ++ [added] } seq = some entry := by
  rw [get] at found ⊢
  rw [List.find?_append, found]
  rfl

theorem get_append_self {added : ConnectionIdEntry} (fresh : ∀ old ∈ deque.inner, old.seq ≠ added.seq) :
    get { deque with inner := deque.inner ++ [added] } added.seq = some added := by
  have absent : deque.inner.find? (fun entry => entry.seq = added.seq) = none := by
    apply List.find?_eq_none.mpr
    simpa using fresh
  simp [get, List.find?_append, absent]

theorem get_eraseP {removed : Nat} (other : seq ≠ removed) :
    get { deque with inner := deque.inner.eraseP fun entry => entry.seq = removed } seq = deque.get seq := by
  rw [get, get]
  induction deque.inner with
  | nil => rfl
  | cons head rest ih =>
    by_cases erased : head.seq = removed
    · have different : ¬ head.seq = seq := fun same => other (same.symm.trans erased)
      rw [List.eraseP_cons_of_pos (by simpa using erased), List.find?_cons_of_neg (by simpa using different)]
    · rw [List.eraseP_cons_of_neg (by simpa using erased)]
      by_cases same : head.seq = seq
      · rw [List.find?_cons_of_pos (by simpa using same), List.find?_cons_of_pos (by simpa using same)]
      · rw [List.find?_cons_of_neg (by simpa using same), List.find?_cons_of_neg (by simpa using same)]
        exact ih

theorem insert_cases {next : ConnectionIdVecDeque} (fresh : ∀ old ∈ deque.inner, old.seq ≠ entry.seq)
    (inserted : deque.insert entry = .ok next) : next = { deque with inner := deque.inner ++ [entry] } := by
  have absent : deque.get entry.seq = none := by
    apply List.find?_eq_none.mpr
    simpa using fresh
  rw [insert, absent, Option.isSome_none, if_neg Bool.false_ne_true] at inserted
  split at inserted
  · contradiction
  · exact (Except.ok.inj inserted).symm

end ConnectionIdVecDeque

namespace ConnectionIdentifiers

variable {ids : ConnectionIdentifiers}

theorem lowestUsableScidSeq_spec {lowest : Nat} (found : ids.lowestUsableScidSeq = some lowest) :
    (∃ entry ∈ ids.scids.inner, entry.seq = lowest) ∧
      ∀ entry ∈ ids.scids.inner, ids.retirePriorTo ≤ entry.seq → lowest ≤ entry.seq := by
  rw [lowestUsableScidSeq, List.min?_eq_some_iff] at found
  obtain ⟨member, least⟩ := found
  refine ⟨by simpa using (List.mem_filter.mp member).1, fun entry stored usable => ?_⟩
  apply least
  simpa using ⟨⟨entry, stored, rfl⟩, usable⟩

section Announcing

/-- The identifier may be announced: it is stored with a reset token and not below the number to retire prior to. -/
def Announceable (ids : ConnectionIdentifiers) (seq : Nat) : Prop :=
  ids.retirePriorTo ≤ seq ∧ ∃ entry token, ids.scids.get seq = some entry ∧ entry.resetToken = some token

/-- Sequence numbers are given out in order, and every queued identifier can still be
announced. -/
structure Announcing (ids : ConnectionIdentifiers) : Prop where
  started : 1 ≤ ids.nextScidSeq
  issued : ∀ entry ∈ ids.scids.inner, entry.seq < ids.nextScidSeq
  retired : ids.retirePriorTo ≤ ids.nextScidSeq
  queued : ∀ seq ∈ ids.advertiseNewScidSeqs, ids.Announceable seq

variable {seq lowest : Nat}

theorem Announceable.lowest_le (announceable : ids.Announceable seq)
    (found : ids.lowestUsableScidSeq = some lowest) : lowest ≤ seq := by
  obtain ⟨usable, entry, _, stored, _⟩ := announceable
  obtain ⟨member, rfl⟩ := ConnectionIdVecDeque.mem_of_get stored
  exact (lowestUsableScidSeq_spec found).2 entry member usable

section

variable (announcing : ids.Announcing)

include announcing

theorem Announcing.lowest_lt
    (found : ids.lowestUsableScidSeq = some lowest) : lowest < ids.nextScidSeq := by
  obtain ⟨entry, member, rfl⟩ := (lowestUsableScidSeq_spec found).1
  exact announcing.issued entry member

theorem Announcing.markAdvertise {advertise : Bool}
    (announceable : advertise = true → ids.Announceable seq) :
    (ids.markAdvertiseNewScidSeq seq advertise).Announcing := by
  obtain ⟨started, issued, retired, queued⟩ := announcing
  cases advertise with
  | true =>
    refine ⟨started, issued, retired, fun other member => ?_⟩
    cases List.mem_append.mp member with
    | inl earlier => exact queued other earlier
    | inr added =>
      rw [List.mem_singleton.mp added]
      exact announceable rfl
  | false =>
    exact ⟨started, issued, retired, fun other member => queued other (List.mem_of_mem_erase member)⟩

theorem Announcing.makeRoom {retireIfNeeded : Bool}
    (spared : retireIfNeeded = true → ids.scids.len ≥ ids.sourceConnIdLimit →
      ∀ lowest, ids.lowestUsableScidSeq = some lowest → lowest ∉ ids.advertiseNewScidSeqs) :
    (after (makeRoom retireIfNeeded ids)).Announcing := by
  rw [ConnectionIdentifiers.makeRoom]
  split
  · rename_i full
    split
    · rename_i retires
      split
      · rename_i lowest found
        refine ⟨announcing.started, announcing.issued, announcing.lowest_lt found, ?_⟩
        intro seq member
        refine ⟨?_, (announcing.queued seq member).2⟩
        apply Nat.lt_of_le_of_ne ((announcing.queued seq member).lowest_le found)
        intro same
        subst same
        exact spared retires full lowest found member
      · exact announcing
    · exact announcing
  · exact announcing

section

variable (cid : List UInt8) (resetToken : Option (BitVec 128)) (advertise : Bool) (pathId : Option Nat)

theorem Announcing.addScid : (after (addScid cid resetToken advertise pathId ids)).Announcing := by
  rw [ConnectionIdentifiers.addScid]
  split
  · exact announcing
  · rename_i given
    split
    · split <;> exact announcing
    · split
      · exact announcing
      · rename_i scids inserted
        have fresh : ∀ old ∈ ids.scids.inner, old.seq ≠ ids.nextScidSeq :=
          fun old member => Nat.ne_of_lt (announcing.issued old member)
        have stored := ConnectionIdVecDeque.insert_cases fresh inserted
        subst stored
        have token : ∃ token, resetToken = some token := by
          apply Option.ne_none_iff_exists'.mp
          intro same
          subst same
          exact given ⟨rfl, Nat.ne_of_gt announcing.started⟩
        obtain ⟨token, rfl⟩ := token
        apply markAdvertise
        · refine ⟨Nat.le_succ_of_le announcing.started, ?_, Nat.le_succ_of_le announcing.retired, ?_⟩
          · intro entry member
            cases List.mem_append.mp member with
            | inl old => exact Nat.lt_succ_of_lt (announcing.issued entry old)
            | inr added =>
              rw [List.mem_singleton.mp added]
              exact Nat.lt_succ_self _
          · intro seq member
            obtain ⟨usable, entry, token, found, given⟩ := announcing.queued seq member
            exact ⟨usable, entry, token, ConnectionIdVecDeque.get_append found, given⟩
        · intro _
          exact ⟨announcing.retired, _, token, ConnectionIdVecDeque.get_append_self fresh, rfl⟩

theorem Announcing.newScid {retireIfNeeded : Bool}
    (spared : retireIfNeeded = true → ids.scids.len ≥ ids.sourceConnIdLimit →
      ∀ lowest, ids.lowestUsableScidSeq = some lowest → lowest ∉ ids.advertiseNewScidSeqs) :
    (after (newScid cid resetToken advertise pathId retireIfNeeded ids)).Announcing := by
  show (after ((if ids.zeroLengthScid then throw .invalidState
    else do
      ConnectionIdentifiers.makeRoom retireIfNeeded
      ConnectionIdentifiers.addScid cid resetToken advertise pathId : Action Nat) ids)).Announcing
  split
  · exact announcing
  · apply after_bind (announcing.makeRoom spared)
    intro _ middle holds
    exact holds.addScid cid resetToken advertise pathId

end

theorem Announcing.raise (found : ids.lowestUsableScidSeq = some lowest) :
    Announcing { ids with retirePriorTo := lowest } where
  started := announcing.started
  issued := announcing.issued
  retired := Nat.le_of_lt (announcing.lowest_lt found)
  queued := fun seq member =>
    ⟨(announcing.queued seq member).lowest_le found, (announcing.queued seq member).2⟩

theorem Announcing.retireScid (pktDcid : List UInt8)
    (spared : 1 < ids.scids.len → seq ∉ ids.advertiseNewScidSeqs) :
    (after (retireScid seq pktDcid ids)).Announcing := by
  rw [ConnectionIdentifiers.retireScid, ConnectionIdVecDeque.remove]
  by_cases last : ids.scids.inner.length ≤ 1
  · rw [if_pos last]
    split <;> exact announcing
  · rw [if_neg last]
    have removed : ∀ retiredScids, Announcing { ids with
        scids := { ids.scids with inner := ids.scids.inner.eraseP fun entry => entry.seq = seq }
        retiredScids } := by
      intro retiredScids
      refine ⟨announcing.started, ?_, announcing.retired, ?_⟩
      · exact fun entry member => announcing.issued entry (List.mem_of_mem_eraseP member)
      · intro queued member
        obtain ⟨usable, entry, token, found, given⟩ := announcing.queued queued member
        have other : queued ≠ seq := by
          intro same
          subst same
          exact spared (Nat.not_le.mp last) member
        refine ⟨usable, entry, token, ?_, given⟩
        rw [← found]
        exact ConnectionIdVecDeque.get_eraseP other
    cases found : ids.scids.get seq with
    | none =>
      split
      · exact announcing
      · exact removed _
    | some entry =>
      split
      · exact announcing
      · dsimp only
        split
        · exact removed _
        · split
          · exact removed _
          · rename_i lowest usable
            exact (removed _).raise usable

theorem Announcing.setSourceConnIdLimit (v : Nat) :
    (ids.setSourceConnIdLimit v).Announcing := by
  have kept : ∀ capacity, (ids.scids.resize capacity).inner = ids.scids.inner := by
    intro capacity
    rw [ConnectionIdVecDeque.resize]
    split <;> rfl
  rw [ConnectionIdentifiers.setSourceConnIdLimit]
  split
  · refine ⟨announcing.started, ?_, announcing.retired, ?_⟩
    · rw [kept]
      exact announcing.issued
    · intro seq member
      simp only [Announceable, ConnectionIdVecDeque.get, kept]
      exact announcing.queued seq member
  · exact announcing

end

theorem new_announcing (limit : Nat) (scid : List UInt8) (pathId : Nat)
    (resetToken : Option (BitVec 128)) : (new limit scid pathId resetToken).Announcing where
  started := Nat.le_refl 1
  issued := by simp [new]
  retired := Nat.zero_le _
  queued := by simp [new]

end Announcing

section Runs

inductive ScidCall where
  | newScid (cid : List UInt8) (resetToken : Option (BitVec 128)) (advertise : Bool)
      (pathId : Option Nat) (retireIfNeeded : Bool)
  | retireScid (seq : Nat) (pktDcid : List UInt8)
  | setSourceConnIdLimit (v : Nat)
  | markAdvertiseNewScidSeq (scidSeq : Nat) (advertise : Bool)

/-- The calls that announce and retire source identifiers. Their results do not matter
here: also a call that fails leaves its traces. -/
def scidMachine : Machine ConnectionIdentifiers ScidCall where
  step ids
    | .newScid cid resetToken advertise pathId retireIfNeeded =>
      some (after (newScid cid resetToken advertise pathId retireIfNeeded ids))
    | .retireScid seq pktDcid => some (after (retireScid seq pktDcid ids))
    | .setSourceConnIdLimit v => some (ids.setSourceConnIdLimit v)
    | .markAdvertiseNewScidSeq scidSeq advertise =>
      some (ids.markAdvertiseNewScidSeq scidSeq advertise)

/-- The next identifier to advertise gives a `NEW_CONNECTION_ID` frame that retires nothing above it. -/
def AdvertisesValidFrame (ids : ConnectionIdentifiers) : Prop :=
  ∀ seq, ids.nextAdvertiseNewScidSeq = some seq → ∃ retirePriorTo connId resetToken,
      ids.getNewConnectionIdFrameFor seq = .ok (.newConnectionId seq retirePriorTo connId resetToken) ∧
      retirePriorTo ≤ seq

/-- The call leaves the queued identifiers alone: neither `new_scid` asks for the
retirement of one nor `retire_scid` removes one, and nothing is queued that could not
be announced. -/
def SparesQueued (ids : ConnectionIdentifiers) : ScidCall → Prop
  | .newScid _ _ _ _ retireIfNeeded =>
    retireIfNeeded = true → ids.scids.len ≥ ids.sourceConnIdLimit →
      ∀ lowest, ids.lowestUsableScidSeq = some lowest → lowest ∉ ids.advertiseNewScidSeqs
  | .retireScid seq _ => 1 < ids.scids.len → seq ∉ ids.advertiseNewScidSeqs
  | .setSourceConnIdLimit _ => True
  | .markAdvertiseNewScidSeq scidSeq advertise => advertise = true → ids.Announceable scidSeq

theorem Announcing.step (announcing : ids.Announcing) (call : ScidCall) (spares : ids.SparesQueued call) :
    ∃ next, scidMachine.step ids call = some next ∧ next.Announcing := by
  cases call with
  | newScid cid resetToken advertise pathId retireIfNeeded =>
    exact ⟨_, rfl, announcing.newScid cid resetToken advertise pathId spares⟩
  | retireScid seq pktDcid => exact ⟨_, rfl, announcing.retireScid pktDcid spares⟩
  | setSourceConnIdLimit v => exact ⟨_, rfl, announcing.setSourceConnIdLimit v⟩
  | markAdvertiseNewScidSeq scidSeq advertise => exact ⟨_, rfl, announcing.markAdvertise spares⟩

theorem Announcing.advertisesValidFrame (announcing : ids.Announcing) : ids.AdvertisesValidFrame := by
  intro seq next
  obtain ⟨usable, entry, token, stored, given⟩ := announcing.queued seq (List.mem_of_mem_head? next)
  refine ⟨ids.retirePriorTo, entry.cid, toBeBytes token, ?_, usable⟩
  simp only [getNewConnectionIdFrameFor, stored, given]

theorem retirePriorTo_of_frame {seq retirePriorTo : Nat} {connId : List UInt8} {token : Vector UInt8 16}
    (frame : ids.getNewConnectionIdFrameFor seq = .ok (.newConnectionId seq retirePriorTo connId token)) :
    retirePriorTo = ids.retirePriorTo := by
  rw [getNewConnectionIdFrameFor] at frame
  split at frame
  · contradiction
  · split at frame
    · contradiction
    · cases frame
      rfl

/-- In every run that spares the queued identifiers, every frame that announces one
is valid. -/
theorem advertised_frames_valid (limit : Nat) (scid : List UInt8) (pathId : Nat)
    (resetToken : Option (BitVec 128)) (calls : List ScidCall)
    (spares : scidMachine.Guarded SparesQueued (new limit scid pathId resetToken) calls) :
    ∃ ids, scidMachine.run (new limit scid pathId resetToken) calls = some ids ∧ ids.AdvertisesValidFrame := by
  obtain ⟨ids, completed, announcing⟩ := scidMachine.run_total_of_guarded
    (fun ids call announcing spares => Announcing.step announcing call spares)
    (new_announcing limit scid pathId resetToken) spares
  exact ⟨ids, completed, announcing.advertisesValidFrame⟩

/-- An identifier is announced before the next one asks for its retirement. -/
theorem advertised_frames_valid_in_turn : ∃ ids, scidMachine.run (new 2 [9] 0 none)
      [.newScid [1] (some 7) true none false, .newScid [2] (some 8) true none true] = some ids ∧
      ids.AdvertisesValidFrame := advertised_frames_valid 2 [9] 0 none _ (by
    refine ⟨by simp [SparesQueued], fun first firstStep => ⟨?_, fun _ _ => trivial⟩⟩
    cases firstStep
    intro _ _ lowest found
    revert found
    revert lowest
    decide)

/-- Two identifiers wait to be announced and the limit is reached: a third one fails,
but has asked for the retirement of the first. -/
theorem retires_unannounced : ∃ ids, scidMachine.run (new 2 [9] 0 none)
      [.newScid [1] (some 7) true none false, .newScid [2] (some 8) true none true,
        .newScid [3] (some 9) true none true] = some ids ∧ ¬ ids.AdvertisesValidFrame := by
  refine ⟨_, rfl, ?_⟩
  intro valid
  obtain ⟨retirePriorTo, connId, resetToken, frame, bound⟩ := valid 1 (by decide)
  rw [retirePriorTo_of_frame frame] at bound
  exact absurd bound (by decide)

end Runs

end ConnectionIdentifiers

end Quiche
