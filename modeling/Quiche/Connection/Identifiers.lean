import Quiche.Cid.Link
import Quiche.Connection.Network

namespace Quiche.Connection

open Data ConnectionIdentifiers

variable {conn next : Connection} {pid seq : Nat} {pending : List (Nat × Nat)}

section Linked

/-- Every path refers to stored identifiers, apart from those in `pending`, and every identifier in use knows its
path. -/
structure Linked (conn : Connection) (pending : List (Nat × Nat)) : Prop where
  distinct : conn.ids.activeDcids.Nodup
  zero : conn.ids.zeroLengthDcid = true → 0 ∈ conn.ids.activeDcids
  dcids : ∀ pid path seq, conn.paths.get pid = some path → path.activeDcidSeq = some seq →
    seq ∈ conn.ids.activeDcids ∨ (seq, pid) ∈ pending
  scids : ∀ pid path seq, conn.paths.get pid = some path → path.activeScidSeq = some seq → seq ∈ conn.ids.activeScids
  recorded : ∀ entry ∈ conn.ids.dcids.inner, ∀ pid, entry.pathId = some pid →
    ∃ path, conn.paths.get pid = some path ∧ path.activeDcidSeq = some entry.seq
  waiting : ∀ seq pid, (seq, pid) ∈ pending → seq ∉ conn.ids.activeDcids ∧ ∃ path, conn.paths.get pid = some path

def cids (path : Path) : Option Nat × Option Nat := (path.activeDcidSeq, path.activeScidSeq)

/-- The paths use the same identifiers. -/
def SameCids (paths map : PathMap) : Prop := PathMap.Alike (fun path old => cids path = cids old) paths map

variable {paths map : PathMap}

theorem SameCids.refl (map : PathMap) : SameCids map map := by
  apply PathMap.Alike.refl
  exact fun _ => rfl

variable {change : Path → Path} {ids : ConnectionIdentifiers}

theorem SameCids.update (kept : ∀ path, cids (change path) = cids path) : SameCids (map.update pid change) map := by
  apply PathMap.Alike.update
  · exact fun _ => rfl
  · exact fun path _ => kept path

section

variable (linked : Linked conn pending)

include linked

theorem Linked.sameCids (same : SameCids paths conn.paths) : Linked { conn with paths } pending where
  distinct := linked.distinct
  zero := linked.zero
  dcids pid path seq found uses := by
    obtain ⟨old, present, equal⟩ := same.backward found
    exact linked.dcids pid old seq present ((Prod.mk.inj equal).1.symm.trans uses)
  scids pid path seq found uses := by
    obtain ⟨old, present, equal⟩ := same.backward found
    exact linked.scids pid old seq present ((Prod.mk.inj equal).2.symm.trans uses)
  recorded entry member pid records := by
    obtain ⟨old, present, uses⟩ := linked.recorded entry member pid records
    obtain ⟨path, found, equal⟩ := same.forward present
    exact ⟨path, found, (Prod.mk.inj equal).1.trans uses⟩
  waiting seq pid member := by
    obtain ⟨gone, old, present⟩ := linked.waiting seq pid member
    obtain ⟨path, found, _⟩ := same.forward present
    exact ⟨gone, path, found⟩

theorem Linked.sameDcids (same : SameDcids ids conn.ids)
    (stays : ∀ pid path seq, conn.paths.get pid = some path → path.activeScidSeq = some seq →
      seq ∈ conn.ids.activeScids → seq ∈ ids.activeScids) : Linked { conn with ids } pending := by
  have active : ids.activeDcids = conn.ids.activeDcids := by
    rw [activeDcids, same.dcids, activeDcids]
  constructor
  · exact active ▸ linked.distinct
  · rw [same.zeroLengthDcid, active]
    exact linked.zero
  · intro pid path seq found uses
    rw [active]
    exact linked.dcids pid path seq found uses
  · exact fun pid path seq found uses => stays pid path seq found uses (linked.scids pid path seq found uses)
  · rw [same.dcids]
    exact linked.recorded
  · intro seq pid member
    rw [active]
    exact linked.waiting seq pid member

theorem Linked.moreScids (more : MoreScids ids conn.ids) : Linked { conn with ids } pending :=
  linked.sameDcids more.toSameDcids fun _ _ seq _ _ active => more.active seq active

end

theorem linked_changePath (kept : ∀ path, cids (change path) = cids path) (pid : Nat) :
    Preserves (Linked · pending) (changePath pid change) :=
  preserves_changePath fun _ _ linked _ => linked.sameCids (.update kept)

section

variable (linked : Linked conn pending)

include linked

theorem Linked.setScid (scidSeq : Option Nat)
    (active : ∀ seq, scidSeq = some seq → seq ∈ conn.ids.activeScids) (pid : Nat) :
    Linked { conn with paths := conn.paths.update pid fun path => { path with activeScidSeq := scidSeq } }
      pending where
  distinct := linked.distinct
  zero := linked.zero
  dcids other path seq found uses := by
    obtain ⟨old, present, rfl⟩ := PathMap.get_update_cases found
    apply linked.dcids other old seq present
    split at uses <;> exact uses
  scids other path seq found uses := by
    obtain ⟨old, present, rfl⟩ := PathMap.get_update_cases found
    split at uses
    · exact active seq uses
    · exact linked.scids other old seq present uses
  recorded entry member other records := by
    obtain ⟨old, present, uses⟩ := linked.recorded entry member other records
    refine ⟨_, PathMap.get_update_of_get present pid _, ?_⟩
    split <;> exact uses
  waiting seq other member := by
    obtain ⟨gone, old, present⟩ := linked.waiting seq other member
    exact ⟨gone, _, PathMap.get_update_of_get present pid _⟩

theorem Linked.unrecorded {path : Path} (found : conn.paths.get pid = some path)
    (gone : ∀ seq, path.activeDcidSeq = some seq → seq ∉ conn.ids.activeDcids) :
    ∀ entry ∈ conn.ids.dcids.inner, entry.pathId ≠ some pid := by
  intro entry member records
  obtain ⟨recorded, present, uses⟩ := linked.recorded entry member pid records
  cases found.symm.trans present
  exact gone entry.seq uses (mem_activeDcids.mpr ⟨entry, member, rfl⟩)

theorem Linked.setDcid {rest : List (Nat × Nat)} (dcidSeq : Option Nat)
    (unrecorded : ∀ entry ∈ conn.ids.dcids.inner, entry.pathId ≠ some pid)
    (active : ∀ seq, dcidSeq = some seq → seq ∈ conn.ids.activeDcids)
    (done : ∀ pair ∈ pending, pair.2 = pid ∨ pair ∈ rest) (left : ∀ pair ∈ rest, pair ∈ pending) :
    Linked { conn with paths := conn.paths.update pid fun path => { path with activeDcidSeq := dcidSeq } }
      rest where
  distinct := linked.distinct
  zero := linked.zero
  dcids other path seq found uses := by
    obtain ⟨old, present, rfl⟩ := PathMap.get_update_cases found
    split at uses
    · exact .inl (active seq uses)
    · rename_i different
      apply (linked.dcids other old seq present uses).imp_right
      exact fun member => (done (seq, other) member).resolve_left different
  scids other path seq found uses := by
    obtain ⟨old, present, rfl⟩ := PathMap.get_update_cases found
    apply linked.scids other old seq present
    split at uses <;> exact uses
  recorded entry member other records := by
    obtain ⟨old, present, uses⟩ := linked.recorded entry member other records
    refine ⟨_, PathMap.get_update_of_get present pid _, ?_⟩
    split
    · rename_i same
      subst same
      exact absurd records (unrecorded entry member)
    · exact uses
  waiting seq other member := by
    obtain ⟨gone, old, present⟩ := linked.waiting seq other (left (seq, other) member)
    exact ⟨gone, _, PathMap.get_update_of_get present pid _⟩

theorem Linked.link {path : Path} (found : conn.paths.get pid = some path)
    (uses : path.activeDcidSeq = some seq) (active : seq ∈ conn.ids.activeDcids) :
    ∃ ids, linkDcidToPathId seq pid conn.ids = .ok () ids ∧ Linked { conn with ids } pending := by
  obtain ⟨dcids, called, seqs, among⟩ := linkDcidToPathId_spec active pid
  refine ⟨_, called, ?_⟩
  have same : activeDcids { conn.ids with dcids } = conn.ids.activeDcids := seqs
  constructor
  · exact same ▸ linked.distinct
  · rw [same]
    exact linked.zero
  · intro other path seq found uses
    rw [same]
    exact linked.dcids other path seq found uses
  · exact linked.scids
  · intro entry member other records
    rcases among entry member with old | ⟨sameSeq, samePath⟩
    · exact linked.recorded entry old other records
    · cases samePath.symm.trans records
      exact ⟨path, found, sameSeq ▸ uses⟩
  · intro seq other member
    rw [same]
    exact linked.waiting seq other member

end

end Linked

section Receive

variable {addrs : SocketAddr × SocketAddr}

theorem Linked.linkScid (linked : Linked conn pending) (scidSeq pathId : Nat) :
    Linked { conn with ids := after (linkScidToPathId scidSeq pathId conn.ids) } pending := by
  obtain ⟨scids, called, seqs⟩ := linkScidToPathId_spec scidSeq pathId conn.ids
  rw [called]
  apply linked.moreScids
  refine ⟨⟨rfl, rfl⟩, fun seq member => ?_⟩
  rw [← seqs] at member
  exact member

theorem linked_noteScid (recvPid inScidSeq : Nat) (dcid : List UInt8) :
    Preserves (fun conn => Linked conn pending ∧ inScidSeq ∈ conn.ids.activeScids)
      (noteScid recvPid inScidSeq dcid) := by
  rw [noteScid]
  apply (preserves_getPath recvPid).bind
  intro path
  apply preserves_get.bind
  intro conn
  apply Preserves.ite (preserves_pure _)
  apply Preserves.bind
  · apply preserves_changePath
    rintro conn path ⟨linked, active⟩ _
    refine ⟨linked.setScid _ ?_ recvPid, active⟩
    rintro seq ⟨⟩
    exact active
  intro _
  apply Preserves.bind _ fun _ => preserves_pure _
  apply preserves_withIds
  rintro conn ⟨linked, active⟩
  refine ⟨linked.linkScid inScidSeq recvPid, ?_⟩
  obtain ⟨scids, called, seqs⟩ := linkScidToPathId_spec inScidSeq recvPid conn.ids
  rw [called]
  rw [← seqs] at active
  exact active

theorem Linked.createRecvPath (linked : Linked conn []) (active : seq ∈ conn.ids.activeScids)
    (inScidPid : Option Nat) (bufLen : Nat) (addrs : SocketAddr × SocketAddr) :
    Linked (after (createRecvPath seq inScidPid bufLen addrs conn)) [] := by
  rcases createRecvPath_spec seq inScidPid bufLen addrs conn with
    ⟨events, same⟩ | ⟨pid, paths, ids, same, inserted, linkedIds⟩
  · rw [same]
    exact linked.sameCids (.refl conn.paths)
  · have opened : Linked { conn with paths } [] := by
      constructor
      · exact linked.distinct
      · exact linked.zero
      · intro other path dcidSeq found uses
        by_cases new : other = pid
        · subst new
          cases inserted.here.symm.trans found
          cases uses
        · exact linked.dcids other path dcidSeq (inserted.others other path found new) uses
      · intro other path scidSeq found uses
        by_cases new : other = pid
        · subst new
          cases inserted.here.symm.trans found
          cases uses
          exact active
        · exact linked.scids other path scidSeq (inserted.others other path found new) uses
      · intro entry member other records
        obtain ⟨path, present, uses⟩ := linked.recorded entry member other records
        have used : path.unused = false := by simp [Path.unused, uses]
        exact ⟨path, (inserted.kept other path present used).2, uses⟩
      · exact fun _ _ member => absurd member List.not_mem_nil
    rw [same]
    rcases linkedIds with rfl | ⟨_, rfl⟩
    · exact opened
    · exact opened.linkScid seq pid

theorem linked_getOrCreateRecvPathId (recvPid : Option Nat) (dcid : List UInt8) (bufLen : Nat)
    (addrs : SocketAddr × SocketAddr) : Preserves (Linked · []) (getOrCreateRecvPathId recvPid dcid bufLen addrs) := by
  constructor
  intro conn linked
  rw [getOrCreateRecvPathId]
  split
  · exact linked
  · rename_i inScidSeq inScidPid found
    have active := findScidSeq_active found
    cases recvPid with
    | some recvPid => exact ((linked_noteScid recvPid inScidSeq dcid).kept conn ⟨linked, active⟩).1
    | none => exact linked.createRecvPath active _ bufLen addrs

theorem Linked.undecryptable (linked : Linked conn pending) (waiting : List (Nat × SocketAddr × SocketAddr)) :
    Linked { conn with undecryptablePkts := waiting } pending :=
  ⟨linked.distinct, linked.zero, linked.dcids, linked.scids, linked.recorded, linked.waiting⟩

theorem linked_recvPackets (recvPid : Option Nat) (addrs : SocketAddr × SocketAddr) (left : Nat)
    (packets : List ReceivedPacket) : Preserves (Linked · []) (recvPackets recvPid addrs left packets) := by
  apply preserves_recvPackets
  · exact fun conn waiting linked => linked.undecryptable waiting
  · exact fun dcid bufLen => linked_getOrCreateRecvPathId recvPid dcid bufLen addrs

theorem linked_recv (addrs : SocketAddr × SocketAddr) (len : Nat) (packets : List ReceivedPacket) :
    Preserves (Linked · []) (recv addrs len packets) := by
  rw [recv]
  apply Preserves.ite (preserves_throw _)
  apply preserves_get.bind
  intro conn
  split
  · rename_i recvPid _
    apply (preserves_getPath recvPid).bind
    intro path
    apply Preserves.ite _ (linked_recvPackets _ addrs len packets)
    apply Preserves.bind
    · apply linked_changePath
      exact fun _ => rfl
    · exact fun _ => linked_recvPackets _ addrs len packets
  · exact .ite (linked_recvPackets _ addrs len packets) (preserves_pure _)

theorem linked_processUndecrypted : Preserves (Linked · []) processUndecrypted := by
  constructor
  intro conn linked
  rw [processUndecrypted]
  split
  · exact linked
  · rename_i len addrs rest _
    have received := (linked_recv addrs len [.long len]).kept _ (linked.undecryptable rest)
    split
    · rename_i called
      rw [called] at received
      exact received
    · rename_i called
      rw [called] at received
      exact Linked.undecryptable received []

end Receive

section Repair

theorem Linked.repairDcid {rest : List (Nat × Nat)} (linked : Linked conn ((seq, pid) :: rest)) :
    ∃ next, repairDcid seq pid conn = .ok () next ∧ Linked next rest := by
  obtain ⟨gone, path, found⟩ := linked.waiting seq pid List.mem_cons_self
  rw [Connection.repairDcid, bind_ok (getPath_some found)]
  by_cases switched : path.activeDcidSeq ≠ some seq
  · rw [if_pos switched]
    refine ⟨conn, rfl, linked.distinct, linked.zero, ?_, linked.scids, linked.recorded, ?_⟩
    · intro other path' used present uses
      apply (linked.dcids other path' used present uses).imp_right
      intro member
      rcases List.mem_cons.mp member with same | member
      · cases same
        cases found.symm.trans present
        exact absurd uses switched
      · exact member
    · exact fun used other member => linked.waiting used other (List.mem_cons_of_mem _ member)
  rw [if_neg switched, get_bind]
  have uses : path.activeDcidSeq = some seq := Decidable.not_not.mp switched
  have unrecorded := linked.unrecorded found fun used same => by
    cases uses.symm.trans same
    exact gone
  have done : ∀ pair ∈ (seq, pid) :: rest, pair.2 = pid ∨ pair ∈ rest := by
    intro pair member
    rcases List.mem_cons.mp member with rfl | member
    · exact .inl rfl
    · exact .inr member
  have left : ∀ pair ∈ rest, pair ∈ (seq, pid) :: rest := fun _ => List.mem_cons_of_mem _
  cases available : conn.ids.lowestAvailableDcidSeq with
  | none =>
    refine ⟨_, changePath_some found _, ?_⟩
    exact linked.setDcid none unrecorded (fun _ noEntry => by cases noEntry) done left
  | some newDcidSeq =>
    have active := lowestAvailableDcidSeq_active available
    have assigned := linked.setDcid (some newDcidSeq) unrecorded (fun _ same => by cases same; exact active)
      done left
    obtain ⟨ids, called, finished⟩ := assigned.link (PathMap.get_update_of_get found pid _)
      (by rw [if_pos rfl]) active
    refine ⟨_, ?_, finished⟩
    dsimp only
    rw [bind_ok (changePath_some found _), withIds, called]

theorem Linked.repairDcids (linked : Linked conn pending) :
    ∃ next, repairDcids pending conn = .ok () next ∧ Linked next [] := by
  induction pending generalizing conn with
  | nil => exact ⟨conn, rfl, linked⟩
  | cons pair rest ih =>
    obtain ⟨middle, repaired, remaining⟩ := linked.repairDcid
    obtain ⟨next, finished, complete⟩ := ih remaining
    exact ⟨next, (bind_ok repaired _).trans finished, complete⟩

end Repair

section Retire

/-- The destination identifiers that `new_dcid` takes out for a larger Retire Prior To. -/
def retiringDcids (ids : ConnectionIdentifiers) (retirePriorTo wrap : Nat) : List ConnectionIdEntry :=
  ids.dcids.inner.take (ringPartitionPoint (fun entry => entry.seq < retirePriorTo) wrap ids.dcids.inner)

/-- The identifiers that a frame retires know the paths that use them, and there is room to queue them. -/
def RetiresRecorded (conn : Connection) (seqNum retirePriorTo : Nat) (connId : List UInt8) (wrap : Nat) : Prop :=
  conn.ids.zeroLengthDcid = false → conn.ids.Fresh connId seqNum →
    conn.ids.largestPeerRetirePriorTo < retirePriorTo → retirePriorTo ≤ seqNum →
    (∀ used ∈ conn.paths.paths.iter, ∀ entry ∈ retiringDcids conn.ids retirePriorTo wrap,
      used.2.activeDcidSeq = some entry.seq → entry.pathId = some used.1) ∧
    conn.ids.retireDcidSeqs.inner.length + (retiringDcids conn.ids retirePriorTo wrap).length ≤
      conn.ids.retireDcidSeqs.capacity + 1

variable {seqNum retirePriorTo wrap : Nat} {connId : List UInt8} {resetToken : BitVec 128}

theorem Linked.addsDcid (linked : Linked conn pending) {ids : ConnectionIdentifiers} {entry : ConnectionIdEntry}
    (adds : AddsDcid ids conn.ids entry) (fresh : ∀ old ∈ conn.ids.dcids.inner, old.seq ≠ entry.seq)
    (unlinked : entry.pathId = none) (other : ∀ pair ∈ pending, pair.1 ≠ entry.seq) :
    Linked { conn with ids } pending := by
  have stays : ∀ seq ∈ conn.ids.activeDcids, seq ∈ ids.activeDcids := by
    intro seq member
    rcases adds.active with same | grown
    · rw [same]
      exact member
    · rw [grown]
      exact List.mem_append_left _ member
  constructor
  · rcases adds.active with same | grown
    · exact same ▸ linked.distinct
    · have new : entry.seq ∉ conn.ids.activeDcids := by
        intro member
        obtain ⟨old, present, same⟩ := mem_activeDcids.mp member
        exact fresh old present same
      show ids.activeDcids.Nodup
      rw [grown, List.nodup_append]
      refine ⟨linked.distinct, List.nodup_singleton _, ?_⟩
      intro first member second single same
      rw [List.mem_singleton.mp single] at same
      exact new (same ▸ member)
  · intro zero
    exact stays 0 (linked.zero (adds.zeroLengthDcid ▸ zero))
  · exact fun pid path seq found uses => (linked.dcids pid path seq found uses).imp_left (stays seq)
  · intro pid path seq found uses
    have active := linked.scids pid path seq found uses
    rw [activeScids] at active
    rw [activeScids, adds.scids]
    exact active
  · intro stored member pid records
    rcases adds.among stored member with old | same
    · exact linked.recorded stored old pid records
    · rw [same, unlinked] at records
      cases records
  · intro seq pid member
    obtain ⟨gone, present⟩ := linked.waiting seq pid member
    refine ⟨?_, present⟩
    intro active
    rcases adds.active with same | grown
    · exact gone (same ▸ active)
    · rw [grown, List.mem_append, List.mem_singleton] at active
      exact active.elim gone (other (seq, pid) member)

theorem Linked.retire (linked : Linked conn []) (nonzero : conn.ids.zeroLengthDcid = false)
    (recorded : ∀ used ∈ conn.paths.paths.iter, ∀ entry ∈ retiringDcids conn.ids retirePriorTo wrap,
      used.2.activeDcidSeq = some entry.seq → entry.pathId = some used.1)
    (room : conn.ids.retireDcidSeqs.inner.length + (retiringDcids conn.ids retirePriorTo wrap).length ≤
      conn.ids.retireDcidSeqs.capacity + 1) :
    Linked { conn with ids := (retireDcids wrap retirePriorTo [] conn.ids).2 }
      (retireDcids wrap retirePriorTo [] conn.ids).1.retiredPathIds := by
  have all : retiringDcids conn.ids retirePriorTo wrap ++
      (retireDcids wrap retirePriorTo [] conn.ids).2.dcids.inner = conn.ids.dcids.inner := List.take_append_drop _ _
  have seqs : (retiringDcids conn.ids retirePriorTo wrap).map (·.seq) ++
      (retireDcids wrap retirePriorTo [] conn.ids).2.activeDcids = conn.ids.activeDcids := by
    rw [activeDcids, ← List.map_append, all, activeDcids]
  have distinct := linked.distinct
  rw [← seqs, List.nodup_append] at distinct
  constructor
  · exact distinct.2.1
  · exact fun zero => absurd (nonzero.symm.trans zero) Bool.false_ne_true
  · intro pid path seq found uses
    rcases linked.dcids pid path seq found uses with active | waits
    · rw [← seqs, List.mem_append] at active
      rcases active with taken | remaining
      · obtain ⟨entry, member, rfl⟩ := List.mem_map.mp taken
        have records := recorded (pid, path) (Slab.mem_iter.mpr found) entry member uses
        exact .inr (drain_complete room (.inr ⟨entry, member, rfl, records⟩))
      · exact .inl remaining
    · cases waits
  · exact linked.scids
  · intro entry member pid records
    exact linked.recorded entry (all ▸ List.mem_append_right _ member) pid records
  · intro seq pid reported
    rcases drain_sound reported with before | ⟨entry, member, rfl, records⟩
    · cases before
    · have earlier : entry ∈ conn.ids.dcids.inner := all ▸ List.mem_append_left _ member
      obtain ⟨path, found, _⟩ := linked.recorded entry earlier pid records
      refine ⟨?_, path, found⟩
      intro remaining
      exact distinct.2.2 entry.seq (List.mem_map.mpr ⟨entry, member, rfl⟩) entry.seq remaining rfl

theorem Linked.processNewConnectionId (linked : Linked conn [])
    (recorded : conn.RetiresRecorded seqNum retirePriorTo connId wrap) (resetToken : BitVec 128) :
    Linked (after (processNewConnectionId seqNum retirePriorTo connId resetToken wrap conn)) [] := by
  let entry : ConnectionIdEntry := ⟨connId, seqNum, some resetToken, none⟩
  have seen : Linked { conn with ids := conn.ids.sees seqNum } [] :=
    linked.moreScids ⟨⟨rfl, rfl⟩, fun _ member => member⟩
  have received : Linked { conn with
      ids := (after (newDcid connId seqNum resetToken retirePriorTo wrap (conn.ids, []))).1 }
      (after (newDcid connId seqNum resetToken retirePriorTo wrap (conn.ids, []))).2 := by
    rcases newDcid_spec connId seqNum resetToken retirePriorTo wrap conn.ids [] with
      ⟨retireDcidSeqs, _, same⟩ | ⟨fresh, current, called⟩ | ⟨active, fresh, larger, bound, called⟩
    · rw [same]
      exact linked.moreScids ⟨⟨rfl, rfl⟩, fun _ member => member⟩
    · have fresher : ∀ old ∈ (conn.ids.sees seqNum).dcids.inner, old.seq ≠ entry.seq := fresh.sees
      obtain ⟨adds, reported⟩ := addDcid_adds ⟨conn.ids.retireDcidSeqs, [], none⟩ fresher
      rw [called, reported]
      exact seen.addsDcid adds fresher rfl (by simp)
    · obtain ⟨used, room⟩ := recorded active fresh larger bound
      have retired := seen.retire active used room
      have fresher : ∀ old ∈ (retireDcids wrap retirePriorTo [] (conn.ids.sees seqNum)).2.dcids.inner,
          old.seq ≠ entry.seq := fresh.retireDcids wrap []
      obtain ⟨adds, reported⟩ := addDcid_adds (retireDcids wrap retirePriorTo [] (conn.ids.sees seqNum)).1 fresher
      rw [called, reported]
      apply retired.addsDcid adds fresher rfl
      intro pair member
      rcases drain_sound member with before | ⟨old, taken, same, _⟩
      · cases before
      · rw [← same]
        exact (fresh old (List.mem_of_mem_take taken)).2
  rw [Connection.processNewConnectionId]
  split
  · exact linked
  · split
    · rename_i called
      rw [called] at received
      obtain ⟨next, repaired, finished⟩ := received.repairDcids
      dsimp only [after] at repaired
      rw [repaired]
      exact finished
    · rename_i called
      rw [called] at received
      obtain ⟨next, repaired, finished⟩ := received.repairDcids
      dsimp only [after] at repaired
      rw [bind_ok repaired]
      exact finished

/-- When the peer retires a source identifier that a path uses, the path is the one that is
recorded for it, and `retire_scid` gets to report it. -/
def RetiresReported (conn : Connection) (seqNum : Nat) (hdrDcid : List UInt8) : Prop :=
  conn.ids.zeroLengthScid = false → seqNum < conn.ids.nextScidSeq → 1 < conn.ids.scids.len →
    ∀ entry ∈ conn.ids.scids.get seqNum, ∀ used ∈ conn.paths.paths.iter, used.2.activeScidSeq = some seqNum →
        entry.pathId = some used.1 ∧ entry.cid ≠ hdrDcid ∧
          ∃ other ∈ conn.ids.remainingScids seqNum, conn.ids.retirePriorTo ≤ other.seq

theorem linked_releaseScid (seqNum : Nat) (pid : Option Nat) :
    Preserves (Linked · pending) (releaseScid seqNum pid) := by
  cases pid with
  | none => exact preserves_pure _
  | some pid =>
    apply (preserves_getPath pid).bind
    intro path
    apply Preserves.ite _ (preserves_pure _)
    apply preserves_changePath
    intro conn path linked _
    exact linked.setScid none (fun _ noEntry => by cases noEntry) pid

variable {hdrDcid : List UInt8}

theorem Linked.releaseScid (linked : Linked conn []) {entry : ConnectionIdEntry} {ids : ConnectionIdentifiers}
    {path : Path} (same : SameDcids ids conn.ids)
    (takesOut : TakesOut conn.ids seqNum hdrDcid entry (.ok (some pid) ids))
    (found : conn.paths.get pid = some path) (uses : path.activeScidSeq = some seqNum)
    (only : ∀ used ∈ conn.paths.paths.iter, used.2.activeScidSeq = some seqNum → used.1 = pid) :
    Linked (after (releaseScid seqNum (some pid) { conn with ids })) [] := by
  have present : { conn with ids }.paths.get pid = some path := found
  dsimp only [Connection.releaseScid]
  rw [bind_ok (getPath_some present), if_pos uses, changePath_some present]
  -- The order of the two changes does not matter: the path releases the identifier first.
  have released := linked.setScid none (fun _ noEntry => by cases noEntry) pid
  apply released.sameDcids same
  intro other path' seq found' uses' active
  apply takesOut.active active
  rintro rfl
  obtain ⟨old, earlier, rfl⟩ := PathMap.get_update_cases found'
  split at uses'
  · cases uses'
  · rename_i elsewhere
    exact elsewhere (only (other, old) (Slab.mem_iter.mpr earlier) uses')

theorem Linked.processRetireConnectionId (linked : Linked conn []) (reported : conn.RetiresReported seqNum hdrDcid) :
    Linked (after (processRetireConnectionId seqNum hdrDcid conn)) [] := by
  rw [Connection.processRetireConnectionId, get_bind]
  split
  · exact linked
  rename_i nonzero
  obtain ⟨same, outcome⟩ := retireScid_spec seqNum hdrDcid conn.ids
  by_cases loses : ∃ pid path, conn.paths.get pid = some path ∧ path.activeScidSeq = some seqNum ∧
      seqNum ∉ (after (retireScid seqNum hdrDcid conn.ids)).activeScids
  · obtain ⟨pid, path, found, uses, gone⟩ := loses
    rcases outcome with kept | ⟨entry, takesOut⟩
    · exact absurd (kept ▸ linked.scids pid path seqNum found uses) gone
    have only := reported (Bool.eq_false_iff.mpr nonzero) takesOut.issued takesOut.several entry takesOut.found
    obtain ⟨records, different, usable⟩ := only (pid, path) (Slab.mem_iter.mpr found) uses
    obtain ⟨ids, called⟩ := takesOut.reports different usable
    rw [records] at called
    rw [called] at same takesOut
    rw [bind_ok (withIds_ok called)]
    apply linked.releaseScid same takesOut found uses
    intro used member uses
    exact Option.some.inj ((only used member uses).1.symm.trans records)
  · have retired : Linked { conn with ids := after (retireScid seqNum hdrDcid conn.ids) } [] := by
      apply linked.sameDcids same
      intro pid path seq found uses active
      by_contra gone
      rcases outcome with kept | ⟨entry, takesOut⟩
      · exact gone (kept ▸ active)
      · by_cases retiring : seq = seqNum
        · subst retiring
          exact loses ⟨pid, path, found, uses, gone⟩
        · exact gone (takesOut.active active retiring)
    cases called : retireScid seqNum hdrDcid conn.ids with
    | ok pid ids =>
      rw [called] at retired
      rw [bind_ok (withIds_ok called)]
      exact (linked_releaseScid seqNum pid).kept _ retired
    | error reason ids =>
      rw [called] at retired
      rw [bind_error (withIds_error called)]
      exact retired

end Retire

section Allocate

section

variable (linked : Linked conn [])

include linked

theorem Linked.assign {path : Path} (found : conn.paths.get pid = some path)
    (lacks : path.activeDcidSeq = none) (dcidSeq : Option Nat)
    (active : ∀ seq, dcidSeq = some seq → seq ∈ conn.ids.activeDcids) :
    Linked { conn with paths := conn.paths.update pid fun path => { path with activeDcidSeq := dcidSeq } } [] := by
  apply linked.setDcid dcidSeq _ active (fun _ member => .inr member) (fun _ member => member)
  apply linked.unrecorded found
  intro seq same
  rw [lacks] at same
  cases same

theorem Linked.allocate {path : Path} (found : conn.paths.get pid = some path)
    (lacks : path.activeDcidSeq = none) (active : seq ∈ conn.ids.activeDcids) :
    ∃ ids, linkDcidToPathId seq pid conn.ids = .ok () ids ∧ Linked { conn with
        ids
        paths := conn.paths.update pid fun path => { path with activeDcidSeq := some seq } } [] := by
  have assigned := linked.assign found lacks (some seq) fun _ same => by cases same; exact active
  exact assigned.link (PathMap.get_update_of_get found pid _) (by rw [if_pos rfl]) active

theorem Linked.allocateDcids {pids : List Nat} (distinct : pids.Nodup)
    (lack : ∀ pid ∈ pids, ∃ path, conn.paths.get pid = some path ∧ path.activeDcidSeq = none) :
    Linked (after (allocateDcids pids conn)) [] := by
  induction pids generalizing conn with
  | nil => exact linked
  | cons pid rest ih =>
    obtain ⟨new, distinct⟩ := List.nodup_cons.mp distinct
    obtain ⟨path, found, lacks⟩ := lack pid List.mem_cons_self
    have later : ∀ change : Path → Path, ∀ other ∈ rest, ∃ path,
        (conn.paths.update pid change).get other = some path ∧ path.activeDcidSeq = none := by
      intro change other member
      obtain ⟨path, present, lacks⟩ := lack other (List.mem_cons_of_mem _ member)
      refine ⟨path, ?_, lacks⟩
      rw [PathMap.get_update_of_get present, if_neg]
      rintro rfl
      exact new member
    rw [Connection.allocateDcids, get_bind]
    split
    · rename_i zero
      rw [bind_ok (changePath_some found _)]
      have assigned := linked.assign found lacks (some 0) fun _ same => by cases same; exact linked.zero zero
      exact ih assigned distinct (later _)
    · cases available : conn.ids.lowestAvailableDcidSeq with
      | none => exact linked
      | some dcidSeq =>
        obtain ⟨ids, called, allocated⟩ := linked.allocate found lacks (lowestAvailableDcidSeq_active available)
        have present : { conn with ids }.paths.get pid = some path := found
        dsimp only
        rw [bind_ok (withIds_ok called), bind_ok (changePath_some present _)]
        exact ih allocated distinct (later _)

theorem Linked.reallocateDcids : Linked (after (reallocateDcids conn)) [] := by
  apply linked.allocateDcids
  · exact (List.filter_sublist.map _).nodup (Slab.iter_keys_nodup conn.paths.paths)
  · intro pid member
    obtain ⟨⟨other, path⟩, listed, rfl⟩ := List.mem_map.mp member
    obtain ⟨stored, lacks⟩ := List.mem_filter.mp listed
    exact ⟨path, Slab.mem_iter.mp stored, Option.isNone_iff_eq_none.mp lacks⟩

end

end Allocate

section Migrate

theorem SameCids.setActivePath (pid : Nat) (map : PathMap) : SameCids (after (PathMap.setActivePath pid map)) map := by
  apply PathMap.Alike.setActivePath
  · exact fun _ => rfl
  · exact fun _ _ _ left right => left.trans right
  · exact fun _ _ => rfl
  · intro path
    rw [PathMap.startMigrating]
    split <;> rfl

theorem Linked.reuseDcid (linked : Linked conn []) (newPid activePathId : Nat) :
    Linked (after (reuseDcid newPid activePathId conn)) [] := by
  rw [Connection.reuseDcid]
  cases found : conn.paths.get newPid with
  | none =>
    rw [bind_error (getPath_none found)]
    exact linked
  | some newPath =>
    rw [bind_ok (getPath_some found), get_bind]
    split
    · rename_i reuses
      have lacks : newPath.activeDcidSeq = none := by
        rw [Bool.and_eq_true] at reuses
        exact Option.isNone_iff_eq_none.mp reuses.1
      cases present : conn.paths.get activePathId with
      | none =>
        rw [bind_error (getPath_none present)]
        exact linked
      | some oldPath =>
        rw [bind_ok (getPath_some present), changePath_some found]
        apply linked.assign found lacks
        intro seq uses
        exact (linked.dcids activePathId oldPath seq present uses).resolve_right List.not_mem_nil
    · exact linked

theorem Linked.onPeerMigrated (linked : Linked conn []) (newPid : Nat) :
    Linked (after (onPeerMigrated newPid conn)) [] := by
  rw [Connection.onPeerMigrated, get_bind]
  cases conn.paths.getActivePathId with
  | none => exact linked
  | some activePathId =>
    dsimp only
    split
    · exact linked
    have moved := linked.sameCids (SameCids.setActivePath newPid conn.paths)
    cases called : PathMap.setActivePath newPid conn.paths with
    | error reason paths =>
      rw [called] at moved
      rw [bind_error (withPaths_error called)]
      exact moved
    | ok _ paths =>
      rw [called] at moved
      rw [bind_ok (withPaths_ok called)]
      exact moved.reuseDcid newPid activePathId

end Migrate

section Runs

theorem promoteTo_cids (path : Path) (state : PathState) : cids (path.promoteTo state) = cids path := by
  rw [Path.promoteTo]
  split <;> rfl

theorem onResponseReceived_cids (path : Path) (data : BitVec 64) :
    cids (path.onResponseReceived data).1 = cids path := by
  rw [Path.onResponseReceived]
  dsimp only
  split
  · split
    · exact (promoteTo_cids _ _).trans (promoteTo_cids _ _)
    · exact promoteTo_cids _ _
  · exact promoteTo_cids _ _

theorem onLossDetectionTimeout_cids (path : Path) (now rtt : Nat) (isServer : Bool) :
    cids (path.onLossDetectionTimeout now rtt isServer) = cids path := by
  have counted : ∀ (path : Path) (time : Nat), cids (path.countProbeLost time rtt) = cids path := by
    intro path time
    rw [Path.countProbeLost]
    split
    · split <;> rfl
    · rfl
  rw [Path.onLossDetectionTimeout]
  dsimp only
  split
  · rfl
  · split <;> exact counted _ _

theorem SameCids.onResponseReceived (data : BitVec 64) (map : PathMap) :
    SameCids (after (PathMap.onResponseReceived data map)) map := by
  apply PathMap.Alike.onResponseReceived
  · exact fun _ => rfl
  · exact fun path _ => onResponseReceived_cids path data

theorem setSourceConnIdLimit_moreScids (limit : Nat) (ids : ConnectionIdentifiers) :
    MoreScids (ids.setSourceConnIdLimit limit) ids := by
  rw [setSourceConnIdLimit]
  split
  · refine ⟨⟨rfl, rfl⟩, fun seq member => ?_⟩
    rw [activeScids, ConnectionIdVecDeque.resize]
    split <;> exact member
  · exact .refl ids

/-- A frame retires identifiers that know their paths only. -/
def RetiresInOrder (conn : Connection) : Event → Prop
  | .newConnectionId seqNum retirePriorTo connId _ wrap => conn.RetiresRecorded seqNum retirePriorTo connId wrap
  | .retireConnectionId seqNum hdrDcid => conn.RetiresReported seqNum hdrDcid
  | _ => True

instance (ids : ConnectionIdentifiers) (cid : List UInt8) (seq : Nat) : Decidable (ids.Fresh cid seq) :=
  inferInstanceAs (Decidable (∀ _ ∈ _, _))

instance (conn : Connection) (event : Event) : Decidable (conn.RetiresInOrder event) := by
  rcases event with ⟨⟩
  case newConnectionId => exact inferInstanceAs (Decidable (_ → _ → _ → _ → _ ∧ _))
  case retireConnectionId => exact inferInstanceAs (Decidable (_ → _ → _ → ∀ _ ∈ _, _))
  all_goals exact .isTrue trivial

theorem Linked.step (linked : Linked conn []) (event : Event) (inOrder : conn.RetiresInOrder event) :
    ∃ next, network.step conn event = some next ∧ Linked next [] := by
  cases event with
  | recv addrs len packets => exact ⟨_, rfl, (linked_recv addrs len packets).kept conn linked⟩
  | processUndecrypted => exact ⟨_, rfl, linked_processUndecrypted.kept conn linked⟩
  | newConnectionId seqNum retirePriorTo connId resetToken wrap =>
    exact ⟨_, rfl, linked.processNewConnectionId inOrder resetToken⟩
  | retireConnectionId seqNum hdrDcid => exact ⟨_, rfl, linked.processRetireConnectionId inOrder⟩
  | reallocateDcids => exact ⟨_, rfl, linked.reallocateDcids⟩
  | peerMigrated newPid =>
    have migrated : Preserves (Linked · []) (Event.peerMigrated newPid).attempt :=
      preserves_get.bind fun _ => .ite ⟨fun _ linked => linked.onPeerMigrated newPid⟩ (preserves_pure _)
    exact ⟨_, rfl, migrated.kept conn linked⟩
  | pathResponse data =>
    have answered : Preserves (Linked · []) (Event.pathResponse data).attempt :=
      preserves_withPaths fun conn linked => linked.sameCids (.onResponseReceived data conn.paths)
    exact ⟨_, rfl, answered.kept conn linked⟩
  | handshakePacket recvPid =>
    have verified : Preserves (Linked · []) (Event.handshakePacket recvPid).attempt := by
      apply preserves_get.bind
      intro _
      apply Preserves.ite _ (preserves_pure _)
      apply linked_changePath
      exact fun _ => rfl
    exact ⟨_, rfl, verified.kept conn linked⟩
  | handshakeCompleted => exact ⟨_, rfl, linked.undecryptable []⟩
  | challengeSent pid data pktSize sentTime =>
    have challenged : Preserves (Linked · []) (Event.challengeSent pid data pktSize sentTime).attempt := by
      apply linked_changePath
      exact fun path => promoteTo_cids path .validating
    exact ⟨_, rfl, challenged.kept conn linked⟩
  | lossDetectionTimeout pid now rtt =>
    have expired : Preserves (Linked · []) (Event.lossDetectionTimeout pid now rtt).attempt :=
      preserves_get.bind fun conn =>
        linked_changePath (fun path => onLossDetectionTimeout_cids path now rtt conn.isServer) pid
    exact ⟨_, rfl, expired.kept conn linked⟩
  | newScid cid resetToken retireIfNeeded =>
    have renewed : Preserves (Linked · []) (Event.newScid cid resetToken retireIfNeeded).attempt := by
      apply Preserves.bind _ fun _ => preserves_pure _
      apply preserves_withIds
      exact fun conn linked => linked.moreScids (newScid_moreScids _ _ _ _ _ conn.ids)
    exact ⟨_, rfl, renewed.kept conn linked⟩
  | setSourceConnIdLimit limit => exact ⟨_, rfl, linked.moreScids (setSourceConnIdLimit_moreScids limit conn.ids)⟩
  | sendOnPath sendPid outLen maxDatagram packets =>
    have sent : Preserves (Linked · []) (Event.sendOnPath sendPid outLen maxDatagram packets).attempt := by
      apply Preserves.bind _ fun _ => preserves_pure _
      apply preserves_sendOnPath
      exact fun conn pid count linked => linked.sameCids (.update fun _ => rfl)
    exact ⟨_, rfl, sent.kept conn linked⟩

theorem established_linked (config : Config) (scid dcid : List UInt8) (resetToken : Option (BitVec 128))
    (localAddr peerAddr : SocketAddr) (addressVerified isServer : Bool) :
    Linked (established config scid dcid resetToken localAddr peerAddr addressVerified isServer) [] := by
  have only : ∀ pid path, (established config scid dcid resetToken localAddr peerAddr addressVerified
      isServer).paths.get pid = some path → path.activeDcidSeq = some 0 ∧ path.activeScidSeq = some 0 := by
    intro pid path found
    change (Slab.empty.insert _).get pid = some path at found
    rw [Slab.get_insert] at found
    split at found
    · cases found
      exact ⟨rfl, rfl⟩
    · simp [Slab.empty, Slab.get] at found
  constructor
  · exact List.nodup_singleton 0
  · exact fun _ => List.mem_singleton_self 0
  · intro pid path seq found uses
    cases (only pid path found).1.symm.trans uses
    exact .inl (List.mem_singleton_self 0)
  · intro pid path seq found uses
    cases (only pid path found).2.symm.trans uses
    exact List.mem_singleton_self 0
  · intro entry member pid records
    cases List.mem_singleton.mp member
    cases records
    exact ⟨_, rfl, rfl⟩
  · exact fun _ _ member => absurd member List.not_mem_nil

/-- Every path refers to identifiers that are stored. -/
structure Refers (conn : Connection) : Prop where
  dcids : ∀ pid path seq, conn.paths.get pid = some path → path.activeDcidSeq = some seq →
    ∃ entry, conn.ids.dcids.get seq = some entry
  scids : ∀ pid path seq, conn.paths.get pid = some path → path.activeScidSeq = some seq →
    ∃ entry, conn.ids.scids.get seq = some entry

theorem Linked.refers (linked : Linked conn []) : conn.Refers := by
  constructor
  · intro pid path seq found uses
    have active := (linked.dcids pid path seq found uses).resolve_right List.not_mem_nil
    exact Option.isSome_iff_exists.mp (get_dcid_isSome.mpr active)
  · intro pid path seq found uses
    exact Option.isSome_iff_exists.mp (get_scid_isSome.mpr (linked.scids pid path seq found uses))

theorem Refers.selectCids (refers : conn.Refers) {path : Path} {ty : PacketType}
    (found : conn.paths.get pid = some path) (named : ty = .short ∨ path.activeScidSeq ≠ none) :
    selectCids conn path ty ≠ .error .invalidState := by
  rw [Connection.selectCids]
  cases usesDcid : path.activeDcidSeq with
  | none => exact fun same => by cases same
  | some dcidSeq =>
    obtain ⟨dcid, present⟩ := refers.dcids pid path dcidSeq found usesDcid
    dsimp only
    rw [present]
    dsimp only
    cases usesScid : path.activeScidSeq with
    | none =>
      dsimp only
      rw [if_pos (named.resolve_right (absurd usesScid))]
      exact fun same => by cases same
    | some scidSeq =>
      obtain ⟨scid, stored⟩ := refers.scids pid path scidSeq found usesScid
      dsimp only
      rw [stored]
      exact fun same => by cases same

/-- In a run in which identifiers are retired in order, every path refers to identifiers that
exist, and a packet does not fail for want of one. -/
theorem paths_refer_to_identifiers (config : Config) (scid dcid : List UInt8) (resetToken : Option (BitVec 128))
    (localAddr peerAddr : SocketAddr) (addressVerified isServer : Bool) (events : List Event)
    (inOrder : network.Guarded RetiresInOrder
      (established config scid dcid resetToken localAddr peerAddr addressVerified isServer) events) :
    ∃ conn, network.run
        (established config scid dcid resetToken localAddr peerAddr addressVerified isServer) events = some conn ∧
      conn.Refers ∧ ∀ pid path ty, conn.paths.get pid = some path → (ty = .short ∨ path.activeScidSeq ≠ none) →
        selectCids conn path ty ≠ .error .invalidState := by
  obtain ⟨conn, completed, linked⟩ := network.run_total_of_guarded
    (fun conn event linked inOrder => Linked.step linked event inOrder)
    (established_linked config scid dcid resetToken localAddr peerAddr addressVerified isServer) inOrder
  exact ⟨conn, completed, linked.refers, fun pid path ty found named => linked.refers.selectCids found named⟩

/-- The peer moves to a second path with an identifier of its own, and the identifiers of
the first path are retired. -/
theorem paths_refer_to_identifiers_migrated :
    ∃ conn, network.run (established serverConfig [1] [2] none ⟨[1], 1⟩ ⟨[2], 2⟩ false true)
        [.newScid [4] 0 false, .newConnectionId 1 0 [3] 0 0, .recv (⟨[1], 1⟩, ⟨[3], 3⟩) 100 [.short [4]],
          .reallocateDcids, .peerMigrated 1, .newConnectionId 2 1 [5] 0 0, .retireConnectionId 0 [4]] = some conn ∧
      conn.Refers ∧ ∃ path, conn.paths.get 0 = some path ∧ path.activeDcidSeq = some 2 ∧ path.activeScidSeq = none :=
  exists_reached_and (fun conn => ∃ path ∈ conn.paths.get 0, path.activeDcidSeq = some 2 ∧ path.activeScidSeq = none)
    (paths_refer_to_identifiers serverConfig [1] [2] none ⟨[1], 1⟩ ⟨[2], 2⟩ false true _ (by decide +kernel))
    (by decide +kernel) fun _ ⟨refers, _⟩ shown => ⟨refers, shown⟩

/-- The peer moves to a second path, which reuses the only destination identifier. When that
is retired, only the first path gets another one. -/
theorem reused_identifier_dangles :
    ∃ conn, network.run (established serverConfig [1] [2] none ⟨[1], 1⟩ ⟨[2], 2⟩ false true)
        [.newScid [4] 0 false, .recv (⟨[1], 1⟩, ⟨[3], 3⟩) 100 [.short [4]], .peerMigrated 1,
          .newConnectionId 1 1 [3] 0 0] = some conn ∧
      ¬ (conn.Refers ∧ ∀ pid path ty, conn.paths.get pid = some path → (ty = .short ∨ path.activeScidSeq ≠ none) →
          selectCids conn path ty ≠ .error .invalidState) := by
  refine exists_reached_of (fun conn => (∃ path ∈ conn.paths.get 1, path.activeDcidSeq = some 0) ∧
    conn.ids.dcids.get 0 = none) (by decide +kernel) fun conn _ ⟨⟨path, found, uses⟩, absent⟩ both => ?_
  obtain ⟨entry, present⟩ := both.1.dcids 1 path 0 found uses
  cases absent.symm.trans present

end Runs

end Quiche.Connection
