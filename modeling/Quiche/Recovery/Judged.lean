import Quiche.Recovery.History

namespace Quiche

open Data

/-! What a pass of loss detection does to the packets that are not resolved. It goes over them
in the order of sending, and ends at the first one that it does not declare lost. -/

structure Judge where
  lossDelay : Nat
  pktThresh : Option Nat

def Judge.expiry (judge : Judge) (sent : Sent) : Int := sent.timeSent + judge.lossDelay

def Judge.late (judge : Judge) (now : Int) (largestAcked : Nat) (sent : Sent) : Bool :=
  decide (judge.expiry sent ≤ now) ||
    judge.pktThresh.any fun thresh => sent.pktNum + thresh ≤ largestAcked

theorem Judge.late_eq (judge : Judge) (now : Int) (largestAcked : Nat) (sent : Sent) :
    judge.late now largestAcked sent = (decide (sent.timeSent ≤ now - judge.lossDelay) ||
      judge.pktThresh.any fun thresh => largestAcked ≥ sent.pktNum + thresh) := by
  rw [Judge.late, Judge.expiry,
    show decide (sent.timeSent + judge.lossDelay ≤ now) = decide (sent.timeSent ≤ now - judge.lossDelay) from
    decide_eq_decide.mpr (by omega)]

def Judge.condemns (judge : Judge) (now : Int) (largestAcked : Nat) (sent : Sent) : Bool :=
  decide (sent.pktNum ≤ largestAcked) && judge.late now largestAcked sent

/-- The packets at the front were lost, up to the first that is not late; its time is then the loss time. -/
structure Judged (late : Sent → Bool) (lossDelay largestAcked : Nat) (before after : List Sent)
    (lossTime : Option Int) : Prop where
  split : ∃ lost, before = lost ++ after ∧ ∀ sent ∈ lost, sent.pktNum ≤ largestAcked ∧ late sent = true
  ends : (∀ sent ∈ after, largestAcked < sent.pktNum) ∧ lossTime = none ∨
    ∃ first rest, after = first :: rest ∧ first.pktNum ≤ largestAcked ∧ late first = false ∧
      lossTime = some (first.timeSent + lossDelay)

section Pass

variable {Packet Acc : Type} {number : Packet → Nat} {reads : Packet → Option Sent} {lossTime : Acc → Option Int}
  {late : Sent → Bool} {lossDelay largestAcked : Nat} {body : Acc → Packet → Option (Acc × Packet × Bool)}
  {acc next : Acc} {packets swept : List Packet}

/-- The body of the loop treats a packet as the loss detection asks. -/
structure Judges (number : Packet → Nat) (reads : Packet → Option Sent) (lossTime : Acc → Option Int)
    (late : Sent → Bool) (lossDelay largestAcked : Nat) (body : Acc → Packet → Option (Acc × Packet × Bool)) :
    Prop where
  numbered : ∀ packet sent, reads packet = some sent → number packet = sent.pktNum
  past {acc packet} : largestAcked < number packet → body acc packet = some (acc, packet, false)
  resolved {acc packet} : number packet ≤ largestAcked → reads packet = none → body acc packet = some (acc, packet, true)
  loses {acc packet sent next new goesOn} : number packet ≤ largestAcked → reads packet = some sent →
    late sent = true → body acc packet = some (next, new, goesOn) →
    goesOn = true ∧ reads new = none ∧ lossTime next = lossTime acc
  keeps {acc packet sent next new goesOn} : number packet ≤ largestAcked → reads packet = some sent →
    late sent = false → lossTime acc = none → body acc packet = some (next, new, goesOn) →
    goesOn = false ∧ new = packet ∧ lossTime next = some (sent.timeSent + lossDelay)

theorem Judges.sweep_judged (judges : Judges number reads lossTime late lossDelay largestAcked body)
    (ascending : packets.Pairwise (number · < number ·)) (unset : lossTime acc = none)
    (looped : sweep body acc packets = some (next, swept)) :
    Judged late lossDelay largestAcked (packets.filterMap reads) (swept.filterMap reads) (lossTime next) := by
  induction packets generalizing acc swept with
  | nil =>
    cases looped
    exact ⟨⟨[], rfl, nofun⟩, .inl ⟨nofun, unset⟩⟩
  | cons packet packets ih =>
    obtain ⟨above, ascending⟩ := List.pairwise_cons.mp ascending
    obtain ⟨⟨middle, new, goesOn⟩, turned, rest⟩ := Option.bind_eq_some_iff.mp looped
    by_cases known : number packet ≤ largestAcked
    · cases is : reads packet with
      | none =>
        cases turned.symm.trans (judges.resolved known is)
        obtain ⟨⟨last, others⟩, continued, same⟩ := Option.bind_eq_some_iff.mp rest
        cases same
        rw [List.filterMap_cons_none is, List.filterMap_cons_none is]
        exact ih ascending unset continued
      | some sent =>
        rw [List.filterMap_cons_some is]
        have numbered := judges.numbered packet sent is
        cases verdict : late sent with
        | true =>
          obtain ⟨rfl, gone, kept⟩ := judges.loses known is verdict turned
          obtain ⟨⟨last, others⟩, continued, same⟩ := Option.bind_eq_some_iff.mp rest
          cases same
          rw [List.filterMap_cons_none gone]
          obtain ⟨⟨lost, split, are⟩, ends⟩ := ih ascending (kept.trans unset) continued
          refine ⟨⟨sent :: lost, by rw [split, List.cons_append], ?_⟩, ends⟩
          exact List.forall_mem_cons.mpr ⟨⟨numbered ▸ known, verdict⟩, are⟩
        | false =>
          obtain ⟨rfl, rfl, time⟩ := judges.keeps known is verdict unset turned
          cases rest
          rw [List.filterMap_cons_some is]
          exact ⟨⟨[], rfl, nofun⟩, .inr ⟨sent, _, rfl, numbered ▸ known, verdict, time⟩⟩
    · cases turned.symm.trans (judges.past (Nat.not_le.mp known))
      cases rest
      refine ⟨⟨[], rfl, nofun⟩, .inl ⟨fun sent member => ?_, unset⟩⟩
      obtain ⟨other, queued, is⟩ := List.mem_filterMap.mp member
      rw [← judges.numbered other sent is]
      rcases List.mem_cons.mp queued with rfl | later
      · exact Nat.not_le.mp known
      · exact (Nat.not_le.mp known).trans (above other later)

end Pass

theorem Kept.ascending {Packet : Type} {matches_ : Packet → Sent × Fate → Prop} {number : Packet → Nat}
    {packets : List Packet} {book : Book} (kept : Kept matches_ packets book)
    (same : ∀ packet entry, matches_ packet entry → number packet = entry.1.pktNum) :
    packets.Pairwise (number · < number ·) := by
  obtain ⟨⟨gone, rest, rfl, _, matched⟩, sorted⟩ := kept
  have numbers : packets.map number = rest.map (·.1.pktNum) := by
    induction matched with
    | nil => rfl
    | cons first _ ih => rw [List.map_cons, List.map_cons, same _ _ first, ih (sorted.sublist (by simp))]
  rw [← List.pairwise_map, numbers, List.pairwise_map]
  exact (List.pairwise_append.mp sorted).2.1

/-- Of the packets `before` the pass exactly those that it has to declare lost are gone, and the loss time is the
earliest one at which another is too old. -/
structure Precise (judge : Judge) (now : Int) (largestAcked : Nat) (before after : List Sent)
    (lossTime : Option Int) : Prop where
  remain : after = before.filter fun sent => !judge.condemns now largestAcked sent
  lossTime : lossTime = ((after.filter (·.pktNum ≤ largestAcked)).map judge.expiry).min?

namespace Judged

variable {judge : Judge} {now : Int} {largest : Nat} {before after : List Sent}
  {lossTime : Option Int}

theorem late_of_later {first sent : Sent} (number : first.pktNum < sent.pktNum) (time : first.timeSent ≤ sent.timeSent)
    (late : judge.late now largest sent = true) : judge.late now largest first = true := by
  rw [Judge.late, Bool.or_eq_true, decide_eq_true_eq] at late ⊢
  rcases late with old | behind
  · rw [Judge.expiry] at old ⊢
    exact .inl (by omega)
  · obtain ⟨thresh, is, far⟩ := (Option.any_eq_true _ _).mp behind
    have near := of_decide_eq_true far
    exact .inr ((Option.any_eq_true _ _).mpr ⟨thresh, is, decide_eq_true (by omega)⟩)

theorem condemns_iff (judge : Judge) (now : Int) (largest : Nat) (sent : Sent) :
    judge.condemns now largest sent = true ↔ sent.pktNum ≤ largest ∧ judge.late now largest sent = true := by
  simp [Judge.condemns]

section

variable (judged : Judged (judge.late now largest) judge.lossDelay largest before after lossTime)

include judged

theorem remain (numbers : before.Pairwise fun left right => left.pktNum < right.pktNum)
    (times : before.Pairwise fun left right => left.timeSent ≤ right.timeSent) :
    after = before.filter fun sent => !judge.condemns now largest sent := by
  obtain ⟨⟨lost, rfl, are⟩, ends⟩ := judged
  have gone : (lost.filter fun sent => !judge.condemns now largest sent) = [] := by
    refine List.filter_eq_nil_iff.mpr fun sent member => ?_
    simp [(condemns_iff judge now largest sent).mpr (are sent member)]
  have stay : ∀ sent ∈ after, judge.condemns now largest sent = false := by
    intro sent member
    refine Bool.eq_false_iff.mpr fun condemned => ?_
    obtain ⟨known, late⟩ := (condemns_iff judge now largest sent).mp condemned
    rcases ends with ⟨past, _⟩ | ⟨first, rest, rfl, _, early, _⟩
    · exact absurd known (Nat.not_le.mpr (past sent member))
    · have both : judge.late now largest first = true := by
        rcases List.mem_cons.mp member with rfl | later
        · exact late
        · have number := (List.pairwise_cons.mp (List.pairwise_append.mp numbers).2.1).1 sent later
          have time := (List.pairwise_cons.mp (List.pairwise_append.mp times).2.1).1 sent later
          exact late_of_later number time late
      rw [early] at both
      cases both
  rw [List.filter_append, gone, List.nil_append]
  exact (List.filter_eq_self.mpr fun sent member => by simp [stay sent member]).symm

theorem lossTime_eq (times : before.Pairwise fun left right => left.timeSent ≤ right.timeSent) :
    lossTime = ((after.filter (·.pktNum ≤ largest)).map judge.expiry).min? := by
  obtain ⟨⟨lost, rfl, are⟩, ends⟩ := judged
  rcases ends with ⟨past, rfl⟩ | ⟨first, rest, rfl, known, early, rfl⟩
  · have nothing : after.filter (·.pktNum ≤ largest) = [] := by
      refine List.filter_eq_nil_iff.mpr fun sent member => ?_
      simpa using past sent member
    rw [nothing]
    rfl
  · rw [List.filter_cons_of_pos (by simpa using known), List.map_cons]
    refine (List.min?_eq_some_iff.mpr ⟨List.mem_cons_self, fun time member => ?_⟩).symm
    rcases List.mem_cons.mp member with rfl | later
    · exact Int.le_refl _
    · obtain ⟨sent, listed, rfl⟩ := List.mem_map.mp later
      have time := (List.pairwise_cons.mp (List.pairwise_append.mp times).2.1).1 sent (List.mem_filter.mp listed).1
      rw [Judge.expiry]
      omega

end

end Judged

namespace Legacy.RecoveryEpoch

variable {epoch next : RecoveryEpoch} {book : Book} {loss : LossDetectionResult} {lossDelay pktThresh : Nat} {now : Int}

def unresolvedPacket (pkt : Sent) : Option Sent :=
  Option.guard (fun pkt => pkt.timeAcked.isNone && pkt.timeLost.isNone) pkt

theorem unresolved_eq_filterMap (epoch : RecoveryEpoch) :
    epoch.unresolved = epoch.sentPackets.filterMap unresolvedPacket := (congrFun List.filterMap_eq_filter _).symm

theorem unresolvedPacket_eq_some {pkt sent : Sent} (is : unresolvedPacket pkt = some sent) :
    sent = pkt ∧ ¬ (pkt.timeAcked.isSome || pkt.timeLost.isSome) = true := by
  obtain ⟨rfl, unresolved⟩ := Option.guard_eq_some_iff.mp is
  refine ⟨rfl, ?_⟩
  rw [Bool.and_eq_true, Option.isNone_iff_eq_none, Option.isNone_iff_eq_none] at unresolved
  rw [unresolved.1, unresolved.2]
  exact Bool.false_ne_true

theorem unresolvedPacket_eq_none {pkt : Sent} (is : unresolvedPacket pkt = none) :
    (pkt.timeAcked.isSome || pkt.timeLost.isSome) = true := by
  rw [unresolvedPacket, Option.guard_eq_none_iff] at is
  rwa [← Option.not_isSome, ← Option.not_isSome, ← Bool.not_or, Bool.not_eq_false'] at is

theorem judges (lossDelay pktThresh largestAcked : Nat) (now : Int) :
    Judges Sent.pktNum unresolvedPacket LossSweep.lossTime (Judge.late ⟨lossDelay, some pktThresh⟩ now largestAcked)
      lossDelay largestAcked (losePacket lossDelay pktThresh now (now - lossDelay) largestAcked) where
  numbered pkt sent is := by rw [(unresolvedPacket_eq_some is).1]
  past above := by rw [losePacket, if_pos (Nat.not_le.mpr above)]
  resolved known is := by rw [losePacket, if_neg (not_not.mpr known), if_pos (unresolvedPacket_eq_none is)]
  loses {sweep pkt sent next new goesOn} known is late turned := by
    obtain ⟨rfl, unresolved⟩ := unresolvedPacket_eq_some is
    have reached : sent.timeSent ≤ now - lossDelay ∨ largestAcked ≥ sent.pktNum + pktThresh := by
      simpa [Judge.late_eq] using late
    rw [losePacket, if_neg (not_not.mpr known), if_neg unresolved, if_pos reached] at turned
    have gone : ∀ frames : List Frame, unresolvedPacket { sent with frames, timeLost := some now } = none := by
      intro frames
      simp [unresolvedPacket, Option.guard]
    split at turned
    · obtain ⟨count, _, turned⟩ := Option.bind_eq_some_iff.mp turned
      cases turned
      exact ⟨rfl, gone [], rfl⟩
    split at turned
    · obtain ⟨count, _, turned⟩ := Option.bind_eq_some_iff.mp turned
      cases turned
      exact ⟨rfl, gone [], rfl⟩
    · cases turned
      exact ⟨rfl, gone [], rfl⟩
  keeps {sweep pkt sent next new goesOn} known is late unset turned := by
    obtain ⟨rfl, unresolved⟩ := unresolvedPacket_eq_some is
    have reached : ¬ (sent.timeSent ≤ now - lossDelay ∨ largestAcked ≥ sent.pktNum + pktThresh) := by
      simpa [Judge.late_eq] using late
    rw [losePacket, if_neg (not_not.mpr known), if_neg unresolved, if_neg reached] at turned
    cases turned
    refine ⟨rfl, rfl, ?_⟩
    show some (sweep.lossTime.elim _ _) = _
    rw [unset]
    rfl

theorem detectLostPackets_judged (tracks : Tracks epoch book)
    (detected : epoch.detectLostPackets lossDelay pktThresh now = some (next, loss)) :
    Judged (Judge.late ⟨max lossDelay granularity, some pktThresh⟩ now (epoch.largestAckedPacket.getD 0))
      (max lossDelay granularity) (epoch.largestAckedPacket.getD 0) epoch.unresolved next.unresolved next.lossTime := by
  obtain ⟨⟨sweep, swept⟩, looped, detected⟩ := Option.bind_eq_some_iff.mp detected
  cases detected
  rw [unresolved_eq_filterMap, unresolved_eq_filterMap]
  have ascending := tracks.kept.ascending fun pkt entry fits => Matches.number fits
  exact (judges (max lossDelay granularity) pktThresh (epoch.largestAckedPacket.getD 0) now).sweep_judged ascending rfl
    looped

end Legacy.RecoveryEpoch

namespace Gcongestion.RecoveryEpoch

variable {epoch next : RecoveryEpoch} {book : Book} {lost : List Lost} {loss : LossDetectionResult} {lossDelay : Nat}
  {pktThresh : Option Nat} {now : Int}

theorem judges (lossDelay : Nat) (pktThresh : Option Nat) (largestAcked : Nat) (now : Int) :
    Judges SentPacket.pktNum unresolvedPacket LossSweep.lossTime (Judge.late ⟨lossDelay, pktThresh⟩ now largestAcked)
      lossDelay largestAcked (losePacket lossDelay pktThresh (now - lossDelay) largestAcked) where
  numbered pkt sent is := by
    rw [unresolvedPacket] at is
    split at is
    · cases is
      rfl
    · cases is
  past above := by rw [losePacket, if_pos above]
  resolved {sweep pkt} known is := by
    obtain ⟨pktNum, status⟩ := pkt
    rw [losePacket, if_neg (Nat.not_lt.mpr known)]
    cases status with
    | sent => cases is
    | acked => rfl
    | lost => rfl
  loses {sweep pkt sent next new goesOn} known is late turned := by
    obtain ⟨pktNum, status⟩ := pkt
    cases status with
    | sent timeSent ackEliciting inFlight hasData isPmtudProbe sentBytes frames =>
      cases is
      rw [Judge.late_eq] at late
      rw [losePacket, if_neg (Nat.not_lt.mpr known)] at turned
      simp only [late, if_true, SentStatus.lose] at turned
      split at turned
      · obtain ⟨count, _, turned⟩ := Option.bind_eq_some_iff.mp turned
        split at turned <;> cases turned <;> exact ⟨rfl, rfl, rfl⟩
      · cases turned
        exact ⟨rfl, rfl, rfl⟩
    | acked => cases is
    | lost => cases is
  keeps {sweep pkt sent next new goesOn} known is late unset turned := by
    obtain ⟨pktNum, status⟩ := pkt
    cases status with
    | sent timeSent ackEliciting inFlight hasData isPmtudProbe sentBytes frames =>
      cases is
      rw [Judge.late_eq] at late
      rw [losePacket, if_neg (Nat.not_lt.mpr known)] at turned
      simp only [late, Bool.false_eq_true, if_false] at turned
      cases turned
      exact ⟨rfl, rfl, rfl⟩
    | acked => cases is
    | lost => cases is

theorem detectAndRemoveLostPackets_judged (tracks : Tracks epoch book)
    (detected : epoch.detectAndRemoveLostPackets lossDelay pktThresh now = some (next, lost, loss)) :
    Judged (Judge.late ⟨lossDelay, pktThresh⟩ now (epoch.largestAckedPacket.getD 0)) lossDelay
      (epoch.largestAckedPacket.getD 0) epoch.unresolved next.unresolved next.lossTime := by
  obtain ⟨⟨sweep, swept⟩, looped, detected⟩ := Option.bind_eq_some_iff.mp detected
  cases detected
  have ascending := tracks.kept.ascending fun pkt entry fits => Matches.number fits
  exact (judges lossDelay pktThresh (epoch.largestAckedPacket.getD 0) now).sweep_judged ascending rfl looped

end Gcongestion.RecoveryEpoch

namespace Recovery

/-- A pass of loss detection returns, and declares lost what it has to. -/
def DetectsLosses (recovery : Recovery) (epoch : Epoch) (unresolved : List Sent) (lossDelay pktThresh : Nat)
    (now : Int) : Prop :=
  match recovery with
  | .legacy recovery =>
    ∃ next loss, (recovery.epochs epoch).detectLostPackets lossDelay pktThresh now = some (next, loss) ∧
      Precise ⟨max lossDelay granularity, some pktThresh⟩ now ((recovery.epochs epoch).largestAckedPacket.getD 0)
        unresolved next.unresolved next.lossTime
  | .gcongestion recovery => ∀ thresh : Option Nat,
    ∃ next lost loss, (recovery.epochs epoch).detectAndRemoveLostPackets lossDelay thresh now =
        some (next, lost, loss) ∧
      Precise ⟨lossDelay, thresh⟩ now ((recovery.epochs epoch).largestAckedPacket.getD 0) unresolved next.unresolved
        next.lossTime

theorem detectsLosses_of_follows {recovery : Recovery} {books : Epoch → Book} (follows : recovery.view.Follows books 0)
    {epoch : Epoch} (times : (books epoch).unresolved.Pairwise fun earlier later => earlier.timeSent ≤ later.timeSent)
    (lossDelay pktThresh : Nat) (now : Int) :
    recovery.DetectsLosses epoch (books epoch).unresolved lossDelay pktThresh now := by
  have numbers (sorted : (books epoch).Sorted) :
      (books epoch).unresolved.Pairwise fun left right => left.pktNum < right.pktNum := by
    have ascending : ((books epoch).map (·.1)).Pairwise fun left right => left.pktNum < right.pktNum :=
      List.pairwise_map.mpr sorted
    exact ascending.sublist (List.filter_sublist.map _)
  cases recovery with
  | legacy recovery =>
    have tracks : (recovery.epochs epoch).Tracks (books epoch) := follows.tracks epoch
    obtain ⟨next, loss, detected, _⟩ := Legacy.RecoveryEpoch.detectLostPackets_spec tracks lossDelay pktThresh now
    have judged := Legacy.RecoveryEpoch.detectLostPackets_judged tracks detected
    rw [tracks.unresolved_eq] at judged
    exact ⟨next, loss, detected, judged.remain (numbers tracks.kept.sorted) times, judged.lossTime_eq times⟩
  | gcongestion recovery =>
    have tracks : (recovery.epochs epoch).Tracks (books epoch) := follows.tracks epoch
    intro thresh
    obtain ⟨next, lost, loss, detected, _⟩ :=
      Gcongestion.RecoveryEpoch.detectAndRemoveLostPackets_spec tracks lossDelay thresh now
    have judged := Gcongestion.RecoveryEpoch.detectAndRemoveLostPackets_judged tracks detected
    rw [tracks.unresolved_eq] at judged
    exact ⟨next, lost, loss, detected, judged.remain (numbers tracks.kept.sorted) times, judged.lossTime_eq times⟩

namespace History

variable {mulF64 : Nat → Rat → Nat} {ops : List Op}

/-- After any run in which packets are sent at times that do not decrease, a pass of loss detection leaves of the
unresolved packets exactly those that are neither old enough nor far enough behind the largest acknowledged one,
and sets the loss time to the earliest one at which another of these is old enough. -/
theorem losses_exact (gcongestionEnabled : Bool) (initialRtt maxAckDelay : Nat) (enableRelaxedLossThreshold : Bool)
    (started : Int) (guarded : (machine mulF64).Guarded Admits
      (start (newWithConfig gcongestionEnabled initialRtt maxAckDelay enableRelaxedLossThreshold started)) ops)
    {epoch : Epoch}
    (times : (ops.flatMap (sentIn epoch)).Pairwise fun earlier later => earlier.timeSent ≤ later.timeSent) :
    ∃ history, (machine mulF64).run
        (start (newWithConfig gcongestionEnabled initialRtt maxAckDelay enableRelaxedLossThreshold started)) ops =
          some history ∧ ∀ lossDelay pktThresh now,
        history.recovery.DetectsLosses epoch (history.books epoch).unresolved lossDelay pktThresh now := by
  obtain ⟨history, returned, accounted⟩ := run_accounted
    (newWithConfig_follows gcongestionEnabled initialRtt maxAckDelay enableRelaxedLossThreshold started) guarded
  have packets : (history.archive epoch).map (·.1) ++ (history.books epoch).map (·.1) = ops.flatMap (sentIn epoch) := by
    simpa [History.packets, start] using run_packets returned epoch
  have unresolved : (history.books epoch).unresolved.Sublist (ops.flatMap (sentIn epoch)) := by
    rw [← packets]
    exact (List.filter_sublist.map _).trans (List.sublist_append_right ..)
  exact ⟨history, returned, detectsLosses_of_follows accounted.follows (times.sublist unresolved)⟩

theorem losses_exact_acknowledged :
    ∃ history, (machine fun duration _ => duration).run (start (newWithConfig true 333000000 0 false 0)) acknowledged =
        some history ∧
      ∀ lossDelay pktThresh now, history.recovery.DetectsLosses .application (history.books .application).unresolved
        lossDelay pktThresh now := losses_exact true 333000000 0 false 0 (by decide +kernel) (by decide)

end History

end Recovery

end Quiche
