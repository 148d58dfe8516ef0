import Quiche.Recovery.Gcongestion.Packets

namespace Quiche

open Data Gcongestion

/-- One of the two thresholds is in use. -/
def Gcongestion.LossThreshold.Armed (thresh : LossThreshold) : Prop :=
  thresh.timeThreshOverhead = none → thresh.pktThresh.isSome = true

theorem Gcongestion.LossThreshold.Armed.onSpuriousLoss {thresh : LossThreshold} (armed : thresh.Armed)
    (newPktThresh : Nat) : ∃ next, thresh.onSpuriousLoss newPktThresh = some next ∧ next.Armed := by
  rw [LossThreshold.onSpuriousLoss]
  cases overhead : thresh.timeThreshOverhead with
  | none =>
    obtain ⟨pktThresh, is⟩ := Option.isSome_iff_exists.mp (armed overhead)
    rw [is]
    exact ⟨_, rfl, fun _ => rfl⟩
  | some overhead =>
    dsimp only
    split
    · exact ⟨_, rfl, nofun⟩
    · exact ⟨_, rfl, nofun⟩

namespace GRecovery

def view (recovery : GRecovery) : View :=
  .of RecoveryEpoch.Matches RecoveryEpoch.packetSpace recovery.epochs recovery.bytesInFlight recovery.lossThresh.Armed

variable {recovery next : GRecovery} {books : Epoch → Book} {epoch : Epoch} {pending left : Nat}

theorem setLossDetectionTimer_spec (recovery : GRecovery) (handshakeStatus : HandshakeStatus) (now : Int) :
    ∃ timer, recovery.setLossDetectionTimer handshakeStatus now = { recovery with lossTimer := timer } := by
  rw [setLossDetectionTimer]
  split
  · exact ⟨_, rfl⟩
  · split
    · exact ⟨_, rfl⟩
    · split
      · exact ⟨_, rfl⟩
      · exact ⟨recovery.lossTimer, rfl⟩

variable {state : RecoveryEpoch} {book : Book}

theorem detectAndRemoveLostPackets_spec (follows : recovery.view.Follows books pending) (mulF64 : Nat → Rat → Nat)
    (epoch : Epoch) (now : Int) :
    ∃ next loss, recovery.detectAndRemoveLostPackets mulF64 epoch now = some (next, loss) ∧
      recovery.view.Advances next.view books
        (Function.update books epoch ((books epoch).lose (next.lostPkts loss))) pending ∧
      next.newlyAcked = recovery.newlyAcked := by
  obtain ⟨state, lost, loss, detected, resolves⟩ :=
    RecoveryEpoch.detectAndRemoveLostPackets_spec (follows.tracks epoch)
      (recovery.rttStats.lossDelay mulF64 recovery.lossThresh.timeThresh) recovery.lossThresh.pktThresh now
  have resolved := Book.total_of_resolved resolves.bytes
  simp only [detectAndRemoveLostPackets, detected, Option.bind_eq_bind, Option.bind_some]
  refine ⟨_, loss, rfl, View.Follows.advance follows rfl resolves.tracks resolves.moves ?_ follows.ready, rfl⟩
  exact BytesInFlight.Exact.subtract (follows.bytes.of_eq (by rw [resolved]; exact Nat.add_right_comm ..)) now

theorem onSpuriousLosses_spec (follows : recovery.lossThresh.Armed) (result : AckedDetectionResult) :
    ∃ next, recovery.onSpuriousLosses result = some next ∧ next.epochs = recovery.epochs ∧
      next.bytesInFlight = recovery.bytesInFlight ∧ next.newlyAcked = recovery.newlyAcked ∧ next.lossThresh.Armed := by
  simp only [onSpuriousLosses]
  cases result.spuriousPktThresh with
  | none => exact ⟨_, rfl, rfl, rfl, rfl, follows⟩
  | some thresh =>
    obtain ⟨lossThresh, adapted, armed⟩ := follows.onSpuriousLoss thresh
    simp only [adapted, Option.bind_eq_bind, Option.bind_some]
    exact ⟨_, rfl, rfl, rfl, rfl, armed⟩

theorem onLargestNewlyAcked_spec (recovery : GRecovery) (largestNewlyAcked : Acked) (result : AckedDetectionResult)
    (ackDelay : Nat) (epoch : Epoch) (handshakeStatus : HandshakeStatus) (now : Int) :
    ∃ largest stats, recovery.onLargestNewlyAcked largestNewlyAcked result ackDelay epoch handshakeStatus now =
      { recovery.setEpoch epoch { recovery.epochs epoch with largestAckedPacket := largest } with
        bytesInFlight := recovery.bytesInFlight.saturatingSubtract result.ackedBytes now
        rttStats := stats } := by
  rw [onLargestNewlyAcked]
  dsimp only
  split
  · exact ⟨_, _, rfl⟩
  · exact ⟨_, recovery.rttStats, rfl⟩

theorem onAckReceived_spec (follows : recovery.view.Follows books 0) (mulF64 : Nat → Rat → Nat) {ranges : RangeSet}
    {skipPn : Option Nat} (acceptable : PacketSpace.Acceptable ranges skipPn) (ackDelay : Nat) (epoch : Epoch)
    (handshakeStatus : HandshakeStatus) (now : Int) (wrap : Nat) :
    ∃ next outcome lost, recovery.onAckReceived mulF64 ranges ackDelay epoch handshakeStatus now skipPn wrap =
        some (next, .ok (outcome, lost)) ∧
      recovery.view.Acknowledges next.view books epoch ranges lost (next.newlyAcked.map (·.pktNum)) := by
  obtain ⟨state, acked, result, detected, resolves, nothing, numbers⟩ :=
    RecoveryEpoch.detectAndRemoveAckedPackets_spec (follows.tracks epoch) acceptable wrap
  have resolved := Book.total_of_resolved resolves.bytes
  have start : { recovery.setEpoch epoch state with newlyAcked := acked }.lossThresh.Armed := follows.ready
  obtain ⟨middle, judged, epochs, same, newly, armed⟩ := onSpuriousLosses_spec start result
  simp only [onAckReceived, detected, Option.bind_eq_bind, Option.bind_some, judged]
  cases last : acked.getLast? with
  | none =>
    have absent := nothing (List.getLast?_eq_none_iff.mp last)
    refine ⟨middle, _, [], rfl, ?_, newly ▸ numbers⟩
    rw [Book.lose_nil]
    refine View.Follows.advance follows epochs resolves.tracks resolves.moves ?_ armed
    rw [same]
    exact follows.bytes.of_eq (by omega)
  | some largestNewlyAcked =>
    obtain ⟨known, stats, noted⟩ := onLargestNewlyAcked_spec middle largestNewlyAcked result ackDelay epoch
      handshakeStatus now
    have first : recovery.view.Advances
        (middle.onLargestNewlyAcked largestNewlyAcked result ackDelay epoch handshakeStatus now).view
        books (Function.update books epoch ((books epoch).acknowledge ranges.iter)) 0 := by
      have updated : (middle.onLargestNewlyAcked largestNewlyAcked result ackDelay epoch handshakeStatus now).epochs =
          Function.update recovery.epochs epoch { state with largestAckedPacket := known } := by
        rw [noted]
        simp only [setEpoch, epochs, Function.update_self, Function.update_idem]
      refine View.Follows.advance follows updated resolves.tracks resolves.moves ?_ ?_
      · simp only [noted, setEpoch, same]
        exact (follows.bytes.of_eq resolved).subtract now
      · rw [noted]
        exact armed
    obtain ⟨spotted, loss, detected, second, unchanged⟩ :=
      detectAndRemoveLostPackets_spec first.follows mulF64 epoch now
    rw [Function.update_idem, Function.update_self] at second
    obtain ⟨timer, timed⟩ := setLossDetectionTimer_spec { spotted with
      ptoCount := 0
      lostCount := spotted.lostCount + loss.lostPackets } handshakeStatus now
    simp only [detected, Option.bind_some, timed]
    have final : spotted.newlyAcked = acked := by
      rw [unchanged, noted]
      exact newly
    refine ⟨_, _, spotted.lostPkts loss, rfl, first.trans second, ?_⟩
    show (books epoch).NewlyAcked ranges.iter (spotted.newlyAcked.map _)
    rw [final]
    exact numbers

theorem onPathChange_spec (follows : recovery.view.Follows books 0) (mulF64 : Nat → Rat → Nat) (epoch : Epoch)
    (now : Int) :
    ∃ next loss, recovery.onPathChange mulF64 epoch now = some (next, loss) ∧ recovery.view.Advances next.view books
        (Function.update books epoch ((books epoch).lose (next.lostPkts loss))) 0 := by
  obtain ⟨next, loss, detected, advances, _⟩ := detectAndRemoveLostPackets_spec follows mulF64 epoch now
  exact ⟨next, loss, detected, advances⟩

section

variable (recovery : GRecovery) (handshakeStatus : HandshakeStatus) (now : Int)

theorem setLossDetectionTimer_epochs :
    (recovery.setLossDetectionTimer handshakeStatus now).epochs = recovery.epochs := by
  obtain ⟨timer, same⟩ := setLossDetectionTimer_spec recovery handshakeStatus now
  rw [same]

theorem setLossDetectionTimer_bytesInFlight :
    (recovery.setLossDetectionTimer handshakeStatus now).bytesInFlight = recovery.bytesInFlight := by
  obtain ⟨timer, same⟩ := setLossDetectionTimer_spec recovery handshakeStatus now
  rw [same]

theorem setLossDetectionTimer_lossThresh :
    (recovery.setLossDetectionTimer handshakeStatus now).lossThresh = recovery.lossThresh := by
  obtain ⟨timer, same⟩ := setLossDetectionTimer_spec recovery handshakeStatus now
  rw [same]

end

theorem onPacketSent_spec (follows : recovery.view.Follows books 0) {pkt : Sent} (fresh : pkt.Fresh)
    (increases : ∀ entry ∈ books epoch, entry.1.pktNum < pkt.pktNum) (handshakeStatus : HandshakeStatus) (now : Int) :
    ∃ next, recovery.onPacketSent pkt epoch handshakeStatus now = some next ∧
      recovery.view.Advances next.view books (Function.update books epoch ((books epoch).send pkt)) 0 := by
  have tracks := follows.tracks epoch
  have total := Book.total_send books epoch pkt
  have moves := Moves.send (recovery.epochs epoch).space (books epoch) pkt
  have ascending : ¬ ((recovery.epochs epoch).sentPackets.getLast?.any fun last => pkt.pktNum ≤ last.pktNum) = true := by
    intro repeats
    obtain ⟨last, found, less⟩ := (Option.any_eq_true _ _).mp repeats
    obtain ⟨entry, member, fits⟩ := tracks.kept.matched (List.mem_of_getLast? found)
    have more := increases entry member
    have number := fits.number
    rw [decide_eq_true_eq] at less
    omega
  have known (is : (recovery.epochs epoch).timeOfLastAckElicitingPacket.isSome = true) :
      (if pkt.ackEliciting then some pkt.timeSent
        else (recovery.epochs epoch).timeOfLastAckElicitingPacket).isSome = true := by
    split
    · rfl
    · exact is
  have elicited (eliciting : pkt.ackEliciting = true) :
      (if pkt.ackEliciting then some pkt.timeSent
        else (recovery.epochs epoch).timeOfLastAckElicitingPacket).isSome = true := by
    rw [if_pos eliciting]
    rfl
  rw [onPacketSent, if_neg ascending]
  refine ⟨_, rfl, ?_⟩
  by_cases flying : pkt.inFlight = true
  · rw [if_pos flying] at total
    have sent : RecoveryEpoch.Tracks
        { recovery.epochs epoch with
          timeOfLastAckElicitingPacket :=
            if pkt.ackEliciting then some pkt.timeSent else (recovery.epochs epoch).timeOfLastAckElicitingPacket
          pktsInFlight := (recovery.epochs epoch).pktsInFlight + 1
          sentPackets := (recovery.epochs epoch).sentPackets ++ [.of pkt] } ((books epoch).send pkt) :=
      PacketSpace.Tracks.send tracks (.unresolved fresh) increases rfl (by rw [if_pos flying]; rfl) known fun _ => elicited
    refine View.Follows.advance follows ?_ sent moves ?_ ?_
    · simp only [if_pos flying, setLossDetectionTimer_epochs, setEpoch, Function.update_idem, SentPacket.of]
      cases pkt.ackEliciting <;> rfl
    · simp only [if_pos flying, setLossDetectionTimer_bytesInFlight, setEpoch]
      exact (follows.bytes.add pkt.size now).of_eq (by omega)
    · simp only [if_pos flying, setLossDetectionTimer_lossThresh, setEpoch]
      exact follows.ready
  · rw [if_neg flying] at total
    have sent : RecoveryEpoch.Tracks
        { recovery.epochs epoch with
          timeOfLastAckElicitingPacket :=
            if pkt.ackEliciting then some pkt.timeSent else (recovery.epochs epoch).timeOfLastAckElicitingPacket
          sentPackets := (recovery.epochs epoch).sentPackets ++ [.of pkt] } ((books epoch).send pkt) :=
      PacketSpace.Tracks.send tracks (.unresolved fresh) increases rfl (by rw [if_neg flying]; rfl) known fun _ => elicited
    refine View.Follows.advance follows ?_ sent moves ?_ ?_
    · simp only [if_neg flying, setEpoch, SentPacket.of]
      cases pkt.ackEliciting <;> rfl
    · simp only [if_neg flying, setEpoch]
      exact follows.bytes.of_eq (by omega)
    · simp only [if_neg flying, setEpoch]
      exact follows.ready

theorem unackedBytes_eq (tracks : state.Tracks book) : state.discard.2 = book.bytes := by
  rw [Book.bytes, ← tracks.unresolved_eq, RecoveryEpoch.unresolved]
  show (state.sentPackets.map RecoveryEpoch.unackedBytes).sum = _
  induction state.sentPackets with
  | nil => rfl
  | cons pkt packets ih =>
    obtain ⟨pktNum, status⟩ := pkt
    rw [List.map_cons, List.sum_cons, ih]
    cases status with
    | sent timeSent ackEliciting inFlight hasData isPmtudProbe sentBytes frames =>
      have first : RecoveryEpoch.unresolvedPacket
          ⟨pktNum, .sent timeSent ackEliciting inFlight hasData isPmtudProbe sentBytes frames⟩ =
          some ⟨pktNum, frames, timeSent, none, none, sentBytes, ackEliciting, inFlight, hasData, isPmtudProbe⟩ := rfl
      rw [List.filterMap_cons_some first, ← List.singleton_append, Sent.bytes_append, Sent.bytes_singleton]
      rfl
    | acked =>
      rw [List.filterMap_cons_none rfl]
      exact Nat.zero_add _
    | lost =>
      rw [List.filterMap_cons_none rfl]
      exact Nat.zero_add _

theorem onPktNumSpaceDiscarded_spec (follows : recovery.view.Follows books 0) (epoch : Epoch)
    (handshakeStatus : HandshakeStatus) (now : Int) :
    (recovery.onPktNumSpaceDiscarded epoch handshakeStatus now).view.Follows (Function.update books epoch []) 0 := by
  have bytes := unackedBytes_eq (follows.tracks epoch)
  have resolved : (books epoch).bytes = (books epoch).bytes + Book.bytes [] := rfl
  have total := Book.total_of_resolved resolved
  refine View.Follows.set follows (setLossDetectionTimer_epochs ..) ⟨.nil, rfl, nofun⟩ ?_ ?_
  · simp only [onPktNumSpaceDiscarded, setLossDetectionTimer_bytesInFlight, setEpoch, bytes]
    exact (follows.bytes.of_eq (by omega)).subtract now
  · simp only [onPktNumSpaceDiscarded, setLossDetectionTimer_lossThresh, setEpoch]
    exact follows.ready

theorem mem_probeFrames (tracks : state.Tracks book) {lossProbes : Nat}
    {frame : Frame} (member : frame ∈ probeFrames state lossProbes) :
    ∃ sent ∈ book.unresolved, sent.hasData = true ∧ frame ∈ sent.frames := by
  obtain ⟨frames, chosen, is⟩ := List.mem_flatten.mp (List.mem_filter.mp member).1
  obtain ⟨⟨pktNum, status⟩, queued, data⟩ := List.mem_filterMap.mp (List.mem_of_mem_take chosen)
  cases status with
  | acked => cases data
  | lost => cases data
  | sent timeSent ackEliciting inFlight hasData isPmtudProbe sentBytes carried =>
    cases hasData with
    | false => cases data
    | true =>
      cases data
      rw [← tracks.unresolved_eq]
      exact ⟨_, List.mem_filterMap.mpr ⟨_, queued, rfl⟩, rfl, is⟩

section

variable (follows : recovery.view.Follows books 0)

include follows

theorem onLossDetectionTimeout_lost (mulF64 : Nat → Rat → Nat)
    (handshakeStatus : HandshakeStatus) (now : Int) (pends : recovery.lossTimeAndSpace.1.isSome = true) :
    ∃ next outcome lost, recovery.onLossDetectionTimeout mulF64 handshakeStatus now = some (next, outcome, lost) ∧
      recovery.view.Advances next.view books
        (Function.update books recovery.lossTimeAndSpace.2 ((books recovery.lossTimeAndSpace.2).lose lost)) 0 := by
  obtain ⟨spotted, loss, detected, advances, _⟩ :=
    detectAndRemoveLostPackets_spec follows mulF64 recovery.lossTimeAndSpace.2 now
  obtain ⟨timer, timed⟩ := setLossDetectionTimer_spec
    { spotted with lostCount := spotted.lostCount + loss.lostPackets } handshakeStatus now
  simp only [onLossDetectionTimeout, if_pos pends, detected, Option.bind_eq_bind, Option.bind_some, timed]
  exact ⟨_, _, spotted.lostPkts loss, rfl, advances⟩

theorem follows_setEpoch (lossProbes : Nat) (ackedFrames lostFrames : List Frame) :
    (recovery.setEpoch epoch
      { recovery.epochs epoch with lossProbes, ackedFrames, lostFrames }).view.Follows books 0 := by
  have tracks := follows.tracks epoch
  exact View.Follows.keep follows rfl ⟨tracks.kept, tracks.count, tracks.last⟩ follows.bytes follows.ready

theorem onProbeTimeout_spec (epoch : Epoch) :
    recovery.view.Probes (recovery.onProbeTimeout epoch).view books epoch := by
  have tracks := follows.tracks epoch
  exact View.Follows.probe follows rfl ⟨tracks.kept, tracks.count, tracks.last⟩ rfl fun frame member =>
    mem_probeFrames tracks member

theorem onLossDetectionTimeout_probes (mulF64 : Nat → Rat → Nat)
    (handshakeStatus : HandshakeStatus) (now : Int) (nothing : ¬ recovery.lossTimeAndSpace.1.isSome = true) :
    ∃ next outcome, recovery.onLossDetectionTimeout mulF64 handshakeStatus now = some (next, outcome, []) ∧
      recovery.view.Probes next.view books (recovery.probeSpace handshakeStatus now) := by
  have probes := onProbeTimeout_spec follows (recovery.probeSpace handshakeStatus now)
  obtain ⟨timer, timed⟩ := setLossDetectionTimer_spec
    (recovery.onProbeTimeout (recovery.probeSpace handshakeStatus now)) handshakeStatus now
  simp only [onLossDetectionTimeout, if_neg nothing, timed]
  exact ⟨_, _, rfl, probes.follows, probes.others, probes.acked, probes.lost⟩

end

end GRecovery

end Quiche
