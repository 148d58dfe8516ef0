import Quiche.Recovery.Legacy.Packets

namespace Quiche.LegacyRecovery

open Data Legacy

def view (recovery : LegacyRecovery) : View :=
  .of RecoveryEpoch.Matches RecoveryEpoch.packetSpace recovery.epochs recovery.bytesInFlight True

variable {recovery next : LegacyRecovery} {books : Epoch → Book} {epoch : Epoch} {pending left : Nat}

section

variable (recovery : LegacyRecovery) (handshakeStatus : HandshakeStatus) (now : Int)

theorem setLossDetectionTimer_spec :
    ∃ timer, recovery.setLossDetectionTimer handshakeStatus now = { recovery with lossTimer := timer } := by
  rw [setLossDetectionTimer]
  split
  · exact ⟨_, rfl⟩
  · split
    · exact ⟨_, rfl⟩
    · split
      · exact ⟨_, rfl⟩
      · exact ⟨recovery.lossTimer, rfl⟩

theorem setLossDetectionTimer_epochs :
    (recovery.setLossDetectionTimer handshakeStatus now).epochs = recovery.epochs := by
  obtain ⟨timer, same⟩ := setLossDetectionTimer_spec recovery handshakeStatus now
  rw [same]

theorem setLossDetectionTimer_bytesInFlight :
    (recovery.setLossDetectionTimer handshakeStatus now).bytesInFlight = recovery.bytesInFlight := by
  obtain ⟨timer, same⟩ := setLossDetectionTimer_spec recovery handshakeStatus now
  rw [same]

end

variable {state : RecoveryEpoch} {book : Book}

theorem advance_drained (follows : recovery.view.Follows books left) {lossThresh : Int} (epochs : next.epochs =
      Function.update recovery.epochs epoch ((recovery.epochs epoch).drainAckedAndLostPackets lossThresh))
    (bytes : next.bytesInFlight.Exact (Book.total books + pending)) :
    recovery.view.Advances next.view books books pending := by
  have same := Function.update_eq_self epoch books
  rw [← same] at bytes
  have advances : recovery.view.Advances next.view books (Function.update books epoch (books epoch)) pending :=
    View.Follows.advance follows epochs (RecoveryEpoch.Tracks.drain (follows.tracks epoch) lossThresh) (.refl _ _) bytes
      trivial
  rwa [same] at advances

theorem detectLostPackets_spec (follows : recovery.view.Follows books pending) (mulF64 : Nat → Rat → Nat)
    (epoch : Epoch) (now : Int) : ∃ next loss, recovery.detectLostPackets mulF64 epoch now = some (next, loss) ∧
      recovery.view.Advances next.view books (Function.update books epoch ((books epoch).lose loss.lostPkts))
        pending ∧ next.newlyAcked = recovery.newlyAcked := by
  obtain ⟨state, loss, detected, resolves, noted⟩ :=
    RecoveryEpoch.detectLostPackets_spec (follows.tracks epoch)
      (mulF64 (max recovery.rttStats.latestRtt recovery.rttStats.smoothedRtt) recovery.timeThresh)
      recovery.pktThresh now
  have resolved := Book.total_of_resolved resolves.bytes
  simp only [detectLostPackets, detected, Option.bind_eq_bind, Option.bind_some]
  refine ⟨_, loss, rfl, ?_, rfl⟩
  refine View.Follows.advance follows rfl (RecoveryEpoch.Tracks.drain resolves.tracks _) resolves.moves ?_ trivial
  refine BytesInFlight.Exact.subtract ?_ now
  split
  · exact BytesInFlight.Exact.subtract (follows.bytes.of_eq (by omega)) now
  · rename_i unnoted
    have absent := noted (Option.not_isSome_iff_eq_none.mp unnoted)
    exact follows.bytes.of_eq (by omega)

theorem onSpuriousLosses_spec (recovery : LegacyRecovery) (result : AckedDetectionResult) :
    (recovery.onSpuriousLosses result).epochs = recovery.epochs ∧
      (recovery.onSpuriousLosses result).bytesInFlight = recovery.bytesInFlight ∧
      (recovery.onSpuriousLosses result).newlyAcked = recovery.newlyAcked := by
  rw [onSpuriousLosses]
  cases result.spuriousPktThresh <;> exact ⟨rfl, rfl, rfl⟩

theorem onLargestNewlyAcked_spec (recovery : LegacyRecovery) (largestNewlyAcked : Acked) (hasAckEliciting : Bool)
    (ackDelay : Nat) (epoch : Epoch) (handshakeStatus : HandshakeStatus) (now : Int) :
    ∃ largest stats, recovery.onLargestNewlyAcked largestNewlyAcked hasAckEliciting ackDelay epoch handshakeStatus now =
      { recovery.setEpoch epoch
        { recovery.epochs epoch with largestAckedPacket := largest } with rttStats := stats } := by
  rw [onLargestNewlyAcked]
  dsimp only
  split
  · exact ⟨_, _, rfl⟩
  · exact ⟨_, recovery.rttStats, rfl⟩

section

variable (follows : recovery.view.Follows books 0)

include follows

theorem onAckReceived_spec (mulF64 : Nat → Rat → Nat) {ranges : RangeSet}
    {skipPn : Option Nat} (acceptable : PacketSpace.Acceptable ranges skipPn) (ackDelay : Nat) (epoch : Epoch)
    (handshakeStatus : HandshakeStatus) (now : Int) (wrap : Nat) :
    ∃ next outcome lost, recovery.onAckReceived mulF64 ranges ackDelay epoch handshakeStatus now skipPn wrap =
        some (next, .ok (outcome, lost)) ∧
      recovery.view.Acknowledges next.view books epoch ranges lost (next.newlyAcked.map (·.pktNum)) := by
  obtain ⟨state, acked, result, detected, resolves, nothing, numbers⟩ :=
    RecoveryEpoch.detectAndRemoveAckedPackets_spec (follows.tracks epoch) acceptable now recovery.rttStats.smoothedRtt
      wrap
  have resolved := Book.total_of_resolved resolves.bytes
  obtain ⟨epochs, same, newly⟩ := onSpuriousLosses_spec { recovery.setEpoch epoch state with newlyAcked := acked } result
  simp only [onAckReceived, detected, Option.bind_eq_bind, Option.bind_some]
  generalize { recovery.setEpoch epoch state with newlyAcked := acked }.onSpuriousLosses result = middle at *
  cases last : acked.getLast? with
  | none =>
    have absent := nothing (List.getLast?_eq_none_iff.mp last)
    refine ⟨middle, _, [], rfl, ?_, newly ▸ numbers⟩
    rw [Book.lose_nil]
    refine View.Follows.advance follows epochs resolves.tracks resolves.moves ?_ trivial
    rw [same]
    exact follows.bytes.of_eq (by omega)
  | some largestNewlyAcked =>
    obtain ⟨known, stats, noted⟩ := onLargestNewlyAcked_spec middle largestNewlyAcked result.hasAckEliciting ackDelay
      epoch handshakeStatus now
    have first : recovery.view.Advances
        (middle.onLargestNewlyAcked largestNewlyAcked result.hasAckEliciting ackDelay epoch handshakeStatus now).view
        books (Function.update books epoch ((books epoch).acknowledge ranges.iter)) result.ackedBytes := by
      have updated : (middle.onLargestNewlyAcked largestNewlyAcked result.hasAckEliciting ackDelay epoch handshakeStatus
          now).epochs = Function.update recovery.epochs epoch { state with largestAckedPacket := known } := by
        rw [noted]
        simp only [setEpoch, epochs, Function.update_self, Function.update_idem]
      refine View.Follows.advance follows updated resolves.tracks resolves.moves ?_ trivial
      simp only [noted, setEpoch, same]
      exact follows.bytes.of_eq resolved
    obtain ⟨spotted, loss, detected, second, unchanged⟩ := detectLostPackets_spec first.follows mulF64 epoch now
    rw [Function.update_idem, Function.update_self] at second
    obtain ⟨timer, timed⟩ := setLossDetectionTimer_spec { spotted with
      bytesInFlight := spotted.bytesInFlight.saturatingSubtract result.ackedBytes now
      ptoCount := 0 } handshakeStatus now
    simp only [detected, Option.bind_some, timed]
    have final : spotted.newlyAcked = acked := by
      rw [unchanged, noted]
      exact newly
    refine ⟨_, _, loss.lostPkts, rfl, (first.trans second).trans ?_, ?_⟩
    · exact advance_drained second.follows rfl (second.follows.bytes.subtract now)
    · show (books epoch).NewlyAcked ranges.iter (spotted.newlyAcked.map _)
      rw [final]
      exact numbers

theorem onPathChange_spec (mulF64 : Nat → Rat → Nat) (epoch : Epoch)
    (now : Int) : ∃ next loss, recovery.onPathChange mulF64 epoch now = some (next, loss) ∧
      recovery.view.Advances next.view books (Function.update books epoch ((books epoch).lose loss.lostPkts)) 0 := by
  obtain ⟨next, loss, detected, advances, _⟩ := detectLostPackets_spec follows mulF64 epoch now
  exact ⟨next, loss, detected, advances⟩

theorem onPacketSent_spec {pkt : Sent} (fresh : pkt.Fresh)
    (increases : ∀ entry ∈ books epoch, entry.1.pktNum < pkt.pktNum) (handshakeStatus : HandshakeStatus) (now : Int) :
    recovery.view.Advances (recovery.onPacketSent pkt epoch handshakeStatus now).view books
      (Function.update books epoch ((books epoch).send pkt)) 0 := by
  have total := Book.total_send books epoch pkt
  have moves := Moves.send (recovery.epochs epoch).space (books epoch) pkt
  by_cases flying : pkt.inFlight = true
  · rw [if_pos flying] at total
    have epochs : (recovery.onPacketSent pkt epoch handshakeStatus now).epochs = Function.update recovery.epochs epoch
        { recovery.epochs epoch with
          timeOfLastAckElicitingPacket :=
            if pkt.ackEliciting then some now else (recovery.epochs epoch).timeOfLastAckElicitingPacket
          inFlightCount := (recovery.epochs epoch).inFlightCount + 1
          sentPackets := (recovery.epochs epoch).sentPackets ++ [pkt] } := by
      simp only [onPacketSent, if_pos flying, setEpoch, setLossDetectionTimer_epochs, Function.update_self,
        Function.update_idem]
      cases pkt.ackEliciting <;> simp [flying]
    refine View.Follows.advance follows epochs ?_ moves ?_ trivial
    · refine (follows.tracks epoch).send (.unresolved fresh) increases rfl (by rw [if_pos flying]; rfl) (fun known => ?_)
        fun _ elicits => ?_
      · dsimp only
        split
        · rfl
        · exact known
      · rw [if_pos elicits]
        rfl
    · simp only [onPacketSent, if_pos flying, setEpoch, setLossDetectionTimer_bytesInFlight]
      exact (follows.bytes.add pkt.size now).of_eq (by omega)
  · rw [if_neg flying] at total
    have epochs : (recovery.onPacketSent pkt epoch handshakeStatus now).epochs = Function.update recovery.epochs epoch
        { recovery.epochs epoch with sentPackets := (recovery.epochs epoch).sentPackets ++ [pkt] } := by
      simp [onPacketSent, flying, setEpoch]
    refine View.Follows.advance follows epochs ?_ moves ?_ trivial
    · exact (follows.tracks epoch).send (.unresolved fresh) increases rfl (by rw [if_neg flying]; rfl) (fun known => known)
        fun is => absurd is flying
    · simp only [onPacketSent, if_neg flying, setEpoch]
      exact follows.bytes.of_eq (by omega)

end

theorem unackedBytes_eq (tracks : state.Tracks book) :
    (state.sentPackets.filter fun pkt => pkt.inFlight && pkt.timeAcked.isNone && pkt.timeLost.isNone).foldl
      (fun acc pkt => acc + pkt.size) 0 = book.bytes := by
  rw [Book.bytes, ← tracks.unresolved_eq, RecoveryEpoch.unresolved, Sent.bytes, Sent.flying, List.filter_filter,
    List.sum_eq_foldl, List.foldl_map]
  simp only [Bool.and_assoc]

theorem onPktNumSpaceDiscarded_spec (follows : recovery.view.Follows books 0) (epoch : Epoch)
    (handshakeStatus : HandshakeStatus) (now : Int) :
    (recovery.onPktNumSpaceDiscarded epoch handshakeStatus now).view.Follows (Function.update books epoch []) 0 := by
  have bytes := unackedBytes_eq (follows.tracks epoch)
  have resolved : (books epoch).bytes = (books epoch).bytes + Book.bytes [] := rfl
  have total := Book.total_of_resolved resolved
  refine View.Follows.set follows (setLossDetectionTimer_epochs ..) ⟨.nil, rfl, nofun⟩ ?_ trivial
  simp only [onPktNumSpaceDiscarded, setLossDetectionTimer_bytesInFlight, setEpoch, bytes]
  exact (follows.bytes.of_eq (by omega)).subtract now

theorem mem_probeFrames (tracks : state.Tracks book) {lossProbes : Nat}
    {frame : Frame} (member : frame ∈ probeFrames state lossProbes) :
    ∃ sent ∈ book.unresolved, sent.hasData = true ∧ frame ∈ sent.frames := by
  obtain ⟨pkt, chosen, is⟩ := List.mem_flatMap.mp member
  obtain ⟨queued, data⟩ := List.mem_filter.mp (List.mem_of_mem_take chosen)
  rw [Bool.and_assoc, Bool.and_eq_true] at data
  refine ⟨pkt, ?_, data.1, is⟩
  rw [← tracks.unresolved_eq]
  exact List.mem_filter.mpr ⟨queued, data.2⟩

section

variable (follows : recovery.view.Follows books 0)

include follows

theorem onLossDetectionTimeout_lost (mulF64 : Nat → Rat → Nat)
    (handshakeStatus : HandshakeStatus) (now : Int) (pends : recovery.lossTimeAndSpace.1.isSome = true) :
    ∃ next outcome lost, recovery.onLossDetectionTimeout mulF64 handshakeStatus now = some (next, outcome, lost) ∧
      recovery.view.Advances next.view books
        (Function.update books recovery.lossTimeAndSpace.2 ((books recovery.lossTimeAndSpace.2).lose lost)) 0 := by
  obtain ⟨spotted, loss, detected, advances, _⟩ := detectLostPackets_spec follows mulF64 recovery.lossTimeAndSpace.2 now
  obtain ⟨timer, timed⟩ := setLossDetectionTimer_spec spotted handshakeStatus now
  simp only [onLossDetectionTimeout, if_pos pends, detected, Option.bind_eq_bind, Option.bind_some, timed]
  exact ⟨_, _, loss.lostPkts, rfl, advances⟩

theorem follows_setEpoch (lossProbes : Nat) (ackedFrames lostFrames : List Frame) :
    (recovery.setEpoch epoch
      { recovery.epochs epoch with lossProbes, ackedFrames, lostFrames }).view.Follows books 0 := by
  have tracks := follows.tracks epoch
  exact View.Follows.keep follows rfl ⟨tracks.kept, tracks.count, tracks.last⟩ follows.bytes trivial

theorem onProbeTimeout_spec (epoch : Epoch) :
    recovery.view.Probes (recovery.onProbeTimeout epoch).view books epoch := by
  have tracks := follows.tracks epoch
  exact View.Follows.probe follows rfl ⟨tracks.kept, tracks.count, tracks.last⟩ rfl fun frame member =>
    mem_probeFrames tracks member

theorem onLossDetectionTimeout_probes (mulF64 : Nat → Rat → Nat)
    (handshakeStatus : HandshakeStatus) (now : Int) (nothing : ¬ recovery.lossTimeAndSpace.1.isSome = true) :
    ∃ next outcome, recovery.onLossDetectionTimeout mulF64 handshakeStatus now = some (next, outcome, []) ∧
      recovery.view.Probes next.view books (recovery.probeSpace handshakeStatus now) := by
  have probes := onProbeTimeout_spec follows (recovery.probeSpace handshakeStatus now)
  obtain ⟨timer, timed⟩ := setLossDetectionTimer_spec
    (recovery.onProbeTimeout (recovery.probeSpace handshakeStatus now)) handshakeStatus now
  simp only [onLossDetectionTimeout, if_neg nothing, timed]
  exact ⟨_, _, rfl, probes.follows, probes.others, probes.acked, probes.lost⟩

end

end Quiche.LegacyRecovery
