import Quiche.Recovery.Gcongestion.Bbr.BandwidthSampler

namespace Quiche.Bbr

open Data Gcongestion

namespace BandwidthSampler

/-- What a packet recorded when it was sent is not above the totals. -/
structure Fits (sampler : BandwidthSampler) (state : ConnectionStateOnSentPacket) : Prop where
  sentBefore : state.totalBytesSentAtLastAckedPacket ≤ state.sendTimeState.totalBytesSent
  sent : state.sendTimeState.totalBytesSent ≤ sampler.totalBytesSent
  acked : state.sendTimeState.totalBytesAcked ≤ sampler.totalBytesAcked

theorem Fits.mono {sampler next : BandwidthSampler} {state : ConnectionStateOnSentPacket} (fits : Fits sampler state)
    (sent : sampler.totalBytesSent ≤ next.totalBytesSent) (acked : sampler.totalBytesAcked ≤ next.totalBytesAcked) :
    Fits next state := ⟨fits.sentBefore, fits.sent.trans sent, fits.acked.trans acked⟩

/-- What the avoidance of overestimates relies on: the points and the candidates are in order. -/
structure Avoids (sampler : BandwidthSampler) : Prop where
  newer : ∀ point ∈ sampler.recentAckPoints.newer, point.totalBytesAcked = sampler.totalBytesAcked
  present : sampler.recentAckPoints.newer = none → sampler.totalBytesAcked = 0
  older : ∀ point ∈ sampler.recentAckPoints.older, point.totalBytesAcked ≤ sampler.totalBytesAcked
  /-- Since the last candidate was pushed, the older point has passed all of them. -/
  passed : sampler.totalBytesAckedAfterLastAckEvent < sampler.totalBytesAcked →
    ∀ point ∈ sampler.recentAckPoints.older, ∀ candidate ∈ sampler.a0Candidates,
      candidate.totalBytesAcked ≤ point.totalBytesAcked

/-- What keeps the subtractions of the sampler from underflow. -/
structure Sound (sampler : BandwidthSampler) (rounds : Nat) : Prop where
  sentAtLast : sampler.totalBytesSentAtLastAckedPacket ≤ sampler.totalBytesSent
  after : sampler.totalBytesAckedAfterLastAckEvent ≤ sampler.totalBytesAcked
  sorted : sampler.connectionStateMap.Sorted
  states : ∀ pktNum state, sampler.connectionStateMap.stored pktNum = some state → Fits sampler state
  candidates : sampler.a0Candidates.Pairwise fun first second => first.totalBytesAcked ≤ second.totalBytesAcked
  bounded : ∀ candidate ∈ sampler.a0Candidates, candidate.totalBytesAcked ≤ sampler.totalBytesAcked
  avoids : sampler.overestimateAvoidance = true → Avoids sampler
  tracker : Measuring.Sane ⟨sampler.maxAckHeightTracker, [], rounds⟩

variable {sampler next : BandwidthSampler} {rounds pktNum : Nat}

theorem new_sound (window : Nat) (overestimateAvoidance chooseA0PointFix : Bool) (sentTime ackTime : Int) :
    Sound (new window overestimateAvoidance chooseA0PointFix sentTime ackTime) 0 where
  sentAtLast := Nat.le_refl 0
  after := Nat.le_refl 0
  sorted := .nil
  states _ _ found := by cases found
  candidates := .nil
  bounded _ member := absurd member List.not_mem_nil
  avoids _ := ⟨nofun, fun _ => rfl, nofun, nofun⟩
  tracker := Measuring.start_sane window overestimateAvoidance

section

variable (sound : sampler.Sound rounds)

include sound

theorem Sound.take (pktNum totalBytesLost totalBytesNeutered lastAckedPacket : Nat) :
    Sound { sampler with
      totalBytesLost
      totalBytesNeutered
      lastAckedPacket
      connectionStateMap := (sampler.connectionStateMap.take pktNum).2 } rounds := by
  obtain ⟨_, sorted, updated⟩ := ConnectionStateMap.take_spec sound.sorted pktNum
  refine { sound with sorted, states := fun other state found => ?_, avoids := fun avoids => ?_ }
  · dsimp only at found
    rw [updated, Function.update_apply] at found
    split at found
    · cases found
    · exact (sound.states other state found).mono (Nat.le_refl _) (Nat.le_refl _)
  · obtain ⟨newer, present, older, passed⟩ := sound.avoids avoids
    exact ⟨newer, present, older, passed⟩

theorem Sound.removeObsolete (leastAcked : Nat) :
    Sound (sampler.removeObsoletePackets leastAcked) rounds := by
  obtain ⟨sorted, updated⟩ := ConnectionStateMap.removeObsolete_spec sound.sorted leastAcked
  refine { sound with sorted, states := fun other state found => ?_, avoids := fun avoids => ?_ }
  · rw [removeObsoletePackets] at found
    dsimp only at found
    rw [updated] at found
    split at found
    · cases found
    · exact (sound.states other state found).mono (Nat.le_refl _) (Nat.le_refl _)
  · obtain ⟨newer, present, older, passed⟩ := sound.avoids avoids
    exact ⟨newer, present, older, passed⟩

theorem Sound.onAppLimited : Sound sampler.onAppLimited rounds := by
  refine { sound with states := fun other state found => ?_, avoids := fun avoids => ?_ }
  · exact (sound.states other state found).mono (Nat.le_refl _) (Nat.le_refl _)
  · obtain ⟨newer, present, older, passed⟩ := sound.avoids avoids
    exact ⟨newer, present, older, passed⟩

theorem Sound.renumber (packetNumber : Nat) :
    Sound { sampler with lastSentPacket := packetNumber } rounds := by
  refine { sound with states := fun other state found => ?_, avoids := fun avoids => ?_ }
  · exact (sound.states other state found).mono (Nat.le_refl _) (Nat.le_refl _)
  · obtain ⟨newer, present, older, passed⟩ := sound.avoids avoids
    exact ⟨newer, present, older, passed⟩

end

def opened (sampler : BandwidthSampler) (sentTime : Int) (bytesInFlight : Nat) : RecentAckPoints :=
  if bytesInFlight = 0 ∧ sampler.overestimateAvoidance then ⟨none, some ⟨sentTime, sampler.totalBytesAcked⟩⟩
  else sampler.recentAckPoints

/-- A packet is counted as sent. -/
structure Counts (sampler : BandwidthSampler) (sentTime : Int) (bytesInFlight : Nat) (next : BandwidthSampler) :
    Prop where
  connectionStateMap : next.connectionStateMap = sampler.connectionStateMap
  totalBytesAcked : next.totalBytesAcked = sampler.totalBytesAcked
  overestimateAvoidance : next.overestimateAvoidance = sampler.overestimateAvoidance
  recentAckPoints : next.recentAckPoints = sampler.opened sentTime bytesInFlight

section

variable (sound : sampler.Sound rounds) (sentTime : Int)

include sound

theorem Sound.count (packetNumber bytes bytesInFlight : Nat) :
    ∃ next, sampler.count sentTime packetNumber bytes bytesInFlight = some next ∧ next.Sound rounds ∧
      Counts sampler sentTime bytesInFlight next := by
  have more : sampler.totalBytesSent ≤ sampler.totalBytesSent + bytes := Nat.le_add_right _ _
  by_cases empty : bytesInFlight = 0
  · by_cases avoids : sampler.overestimateAvoidance = true
    · refine ⟨{ sampler with
        lastSentPacket := packetNumber
        totalBytesSent := sampler.totalBytesSent + bytes
        lastAckedPacketAckTime := sentTime
        recentAckPoints := ⟨none, some ⟨sentTime, sampler.totalBytesAcked⟩⟩
        a0Candidates := [⟨sentTime, sampler.totalBytesAcked⟩]
        totalBytesSentAtLastAckedPacket := sampler.totalBytesSent + bytes
        lastAckedPacketSentTime := sentTime }, ?_, ?_, rfl, rfl, rfl, (if_pos ⟨empty, avoids⟩).symm⟩
      · rw [BandwidthSampler.count, if_pos empty, openTransmission, openPoints, if_pos avoids]
        rfl
      · refine ⟨Nat.le_refl _, sound.after, sound.sorted, fun pktNum state found => ?_, List.pairwise_singleton _ _, ?_,
          fun _ => ?_, sound.tracker⟩
        · exact (sound.states pktNum state found).mono more (Nat.le_refl _)
        · intro candidate member
          rw [List.mem_singleton.mp member]
        · refine ⟨fun point newest => ?_, nofun, nofun, fun _ => nofun⟩
          cases newest
          rfl
    · refine ⟨{ sampler with
        lastSentPacket := packetNumber
        totalBytesSent := sampler.totalBytesSent + bytes
        lastAckedPacketAckTime := sentTime
        totalBytesSentAtLastAckedPacket := sampler.totalBytesSent + bytes
        lastAckedPacketSentTime := sentTime }, ?_, ?_, rfl, rfl, rfl, (if_neg fun both => avoids both.2).symm⟩
      · rw [BandwidthSampler.count, if_pos empty, openTransmission, openPoints, if_neg avoids]
        rfl
      · refine { sound with
          sentAtLast := Nat.le_refl _
          states := fun pktNum state found => ?_
          avoids := fun avoiding => absurd avoiding avoids }
        exact (sound.states pktNum state found).mono more (Nat.le_refl _)
  · refine ⟨{ sampler with
      lastSentPacket := packetNumber
      totalBytesSent := sampler.totalBytesSent + bytes }, if_neg empty, ?_, rfl, rfl, rfl,
      (if_neg fun both => empty both.1).symm⟩
    refine { sound with
      sentAtLast := sound.sentAtLast.trans more
      states := fun pktNum state found => ?_
      avoids := fun avoids => ?_ }
    · exact (sound.states pktNum state found).mono more (Nat.le_refl _)
    · obtain ⟨newer, present, older, passed⟩ := sound.avoids avoids
      exact ⟨newer, present, older, passed⟩

theorem stateOnSent_fits (size bytesInFlight : Nat) :
    Fits sampler (sampler.stateOnSent sentTime size bytesInFlight) := ⟨sound.sentAtLast, Nat.le_refl _, Nat.le_refl _⟩

theorem Sound.onPacketSent {packetNumber : Nat}
    (bytes bytesInFlight : Nat) (below : ∀ entry ∈ sampler.connectionStateMap, entry.1 < packetNumber) :
    ∃ counted next, sampler.count sentTime packetNumber bytes bytesInFlight = some counted ∧
      sampler.onPacketSent sentTime packetNumber bytes bytesInFlight true = some next ∧ next.Sound rounds ∧
      sampler.connectionStateMap.insert packetNumber
        (counted.stateOnSent sentTime bytes (bytesInFlight + bytes)) = some next.connectionStateMap ∧
      next.overestimateAvoidance = sampler.overestimateAvoidance ∧
      next.recentAckPoints = sampler.opened sentTime bytesInFlight := by
  obtain ⟨counted, counts, countedSound, same⟩ := sound.count sentTime packetNumber bytes bytesInFlight
  have inserted := ConnectionStateMap.insert_exists below (counted.stateOnSent sentTime bytes (bytesInFlight + bytes))
  obtain ⟨sorted, _, updated⟩ := ConnectionStateMap.insert_spec sound.sorted inserted
  refine ⟨counted, { counted with connectionStateMap := sampler.connectionStateMap ++
    [(packetNumber, some (counted.stateOnSent sentTime bytes (bytesInFlight + bytes)))] }, counts, ?_, ?_, inserted,
    same.overestimateAvoidance, same.recentAckPoints⟩
  · rw [BandwidthSampler.onPacketSent, if_neg (by decide), counts, Option.bind_eq_bind, Option.bind_some,
      same.connectionStateMap, inserted]
    rfl
  · refine { countedSound with sorted, states := fun pktNum state found => ?_, avoids := fun avoids => ?_ }
    · dsimp only at found
      rw [updated, Function.update_apply] at found
      split at found
      · cases found
        exact (stateOnSent_fits countedSound sentTime bytes _).mono (Nat.le_refl _) (Nat.le_refl _)
      · rw [← same.connectionStateMap] at found
        exact (countedSound.states pktNum state found).mono (Nat.le_refl _) (Nat.le_refl _)
    · obtain ⟨newer, present, older, passed⟩ := countedSound.avoids avoids
      exact ⟨newer, present, older, passed⟩

end

theorem mulU64_wraps (left right : UInt64) : OverflowChecks.wraps.mulU64 left right = some (left * right) :=
  if_neg fun both => nomatch both.1

theorem fromBytesAndTimeDelta_wraps (bytes : UInt64) (timeDelta : Nat) :
    ∃ rate, Bandwidth.fromBytesAndTimeDelta .wraps bytes timeDelta = some rate := by
  have either : ∀ (zero small : Prop) [Decidable zero] [Decidable small] (first second third : Bandwidth),
      ∃ rate, (if zero then some first else if small then some second else some third) = some rate := by
    intro zero small _ _ first second third
    by_cases zero
    · exact ⟨first, if_pos ‹_›⟩
    · by_cases small
      · exact ⟨second, by rw [if_neg ‹_›, if_pos ‹_›]⟩
      · exact ⟨third, by rw [if_neg ‹_›, if_neg ‹_›]⟩
  rw [Bandwidth.fromBytesAndTimeDelta, mulU64_wraps, Option.bind_eq_bind, Option.bind_some, mulU64_wraps,
    Option.bind_some]
  exact either _ _ _ _ _

theorem sendRate_exists {state : ConnectionStateOnSentPacket} (fits : Fits sampler state) :
    ∃ rate, sendRate .wraps state = some rate := by
  rw [sendRate]
  split
  · rw [subUsize_of_le fits.sentBefore]
    obtain ⟨rate, computed⟩ := fromBytesAndTimeDelta_wraps
      (UInt64.ofNat (state.sendTimeState.totalBytesSent - state.totalBytesSentAtLastAckedPacket))
      (state.sentTime - state.lastAckedPacketSentTime).toNat
    exact ⟨some rate, by rw [Option.bind_eq_bind, Option.bind_some, computed]; rfl⟩
  · exact ⟨none, rfl⟩

theorem sample_exists {totalBytesAcked : Nat} {a0 : AckPoint} (before : a0.totalBytesAcked ≤ totalBytesAcked)
    (ackTime : Int) (state : ConnectionStateOnSentPacket) (rate : Option Bandwidth) :
    ∃ result, sample .wraps totalBytesAcked ackTime state rate a0 = some result ∧
      ∀ sample ∈ result, sample.stateAtSend.totalBytesAcked = state.sendTimeState.totalBytesAcked := by
  rw [sample]
  split
  · exact ⟨none, rfl, nofun⟩
  · rw [subUsize_of_le before]
    obtain ⟨rate, computed⟩ := fromBytesAndTimeDelta_wraps (UInt64.ofNat (totalBytesAcked - a0.totalBytesAcked))
      (ackTime - a0.ackTime).toNat
    simp only [Option.bind_eq_bind, Option.bind_some, computed]
    refine ⟨_, rfl, fun sample is => ?_⟩
    cases is
    rfl

theorem chooseA0Point_spec (totalBytesAcked : Nat) (chooseA0PointFix : Bool) (candidates : List AckPoint) :
    (chooseA0Point totalBytesAcked chooseA0PointFix candidates).2.Sublist candidates ∧
      ∀ point ∈ (chooseA0Point totalBytesAcked chooseA0PointFix candidates).1, point ∈ candidates := by
  induction candidates with
  | nil => exact ⟨.slnil, nofun⟩
  | cons first rest ih =>
    cases rest with
    | nil => exact ⟨.refl _, fun point is => List.mem_singleton.mpr (Option.some.inj is).symm⟩
    | cons second rest =>
      rw [chooseA0Point]
      split
      · refine ⟨.refl _, fun point is => ?_⟩
        cases is
        split
        · exact List.mem_cons_self
        · exact List.mem_cons_of_mem _ List.mem_cons_self
      · exact ⟨ih.1.cons _, fun point is => List.mem_cons_of_mem _ (ih.2 point is)⟩

def pointed (sampler : BandwidthSampler) (ackTime : Int) (totalBytesAcked : Nat) : RecentAckPoints :=
  if sampler.overestimateAvoidance then ⟨sampler.recentAckPoints.newer, some ⟨ackTime, totalBytesAcked⟩⟩
  else sampler.recentAckPoints

/-- A packet is counted as acknowledged. -/
structure Credited (sampler : BandwidthSampler) (ackTime : Int) (size : Nat) (next : BandwidthSampler) : Prop where
  connectionStateMap : next.connectionStateMap = sampler.connectionStateMap
  overestimateAvoidance : next.overestimateAvoidance = sampler.overestimateAvoidance
  totalBytesAcked : next.totalBytesAcked = sampler.totalBytesAcked + size
  recentAckPoints : next.recentAckPoints = sampler.pointed ackTime (sampler.totalBytesAcked + size)

theorem update_points {points : RecentAckPoints} {totalBytesAcked : Nat}
    (before : ∀ point ∈ points.newer, point.totalBytesAcked ≤ totalBytesAcked) (ackTime : Int) :
    points.update ackTime totalBytesAcked = some ⟨points.newer, some ⟨ackTime, totalBytesAcked⟩⟩ := by
  refine if_pos ?_
  cases newest : points.newer with
  | none => exact Nat.zero_le _
  | some point => exact before point newest

theorem Sound.credit (sound : sampler.Sound rounds) (ackTime : Int) (pktNum : Nat) {state : ConnectionStateOnSentPacket}
    (fits : Fits sampler state) : ∃ next, sampler.credit ackTime pktNum state = some next ∧ next.Sound rounds ∧
      Credited sampler ackTime state.size next := by
  have more : sampler.totalBytesAcked ≤ sampler.totalBytesAcked + state.size := Nat.le_add_right _ _
  have points : sampler.updatePoints ackTime (sampler.totalBytesAcked + state.size) =
      some (sampler.pointed ackTime (sampler.totalBytesAcked + state.size)) := by
    rw [updatePoints, pointed]
    split
    · rename_i avoids
      exact update_points (fun point newest => ((sound.avoids avoids).newer point newest).le.trans more) ackTime
    · rfl
  rw [BandwidthSampler.credit, points]
  refine ⟨_, rfl, ?_, rfl, rfl, rfl, rfl⟩
  refine {
    sound with
    sentAtLast := fits.sent
    after := sound.after.trans more
    states := fun pktNum state found => (sound.states pktNum state found).mono (Nat.le_refl _) more
    bounded := fun candidate member => (sound.bounded candidate member).trans more
    avoids := fun avoids => ?_ }
  have stillAvoids : sampler.overestimateAvoidance = true := avoids
  have old := sound.avoids stillAvoids
  have is : sampler.pointed ackTime (sampler.totalBytesAcked + state.size) =
      ⟨sampler.recentAckPoints.newer, some ⟨ackTime, sampler.totalBytesAcked + state.size⟩⟩ := if_pos stillAvoids
  constructor
  · intro point newest
    simp only [is] at newest
    cases newest
    rfl
  · intro absent
    simp only [is] at absent
    cases absent
  · intro point second
    simp only [is] at second
    exact (old.newer point second).le.trans more
  · intro _ point second candidate member
    simp only [is] at second
    exact (sound.bounded candidate member).trans (old.newer point second).ge

/-- The points that acknowledgements at one time add, in order: one for each packet that is still stored. -/
def credits (ackTime : Int) : ConnectionStateMap ConnectionStateOnSentPacket → Nat → List Acked → List AckPoint
  | _, _, [] => []
  | map, totalBytesAcked, packet :: packets =>
    match map.take packet.pktNum with
    | (some state, map) =>
      ⟨ackTime, totalBytesAcked + state.size⟩ :: credits ackTime map (totalBytesAcked + state.size) packets
    | (none, map) => credits ackTime map totalBytesAcked packets

def latestTwo (history : List AckPoint) : RecentAckPoints := ⟨history[1]?, history.head?⟩

/-- The packets of an event are taken out of the map, and their points pushed. -/
structure Acks (sampler : BandwidthSampler) (points : List AckPoint)
    (map : ConnectionStateMap ConnectionStateOnSentPacket) (next : BandwidthSampler) : Prop where
  connectionStateMap : next.connectionStateMap = map
  overestimateAvoidance : next.overestimateAvoidance = sampler.overestimateAvoidance
  recentAckPoints : ∀ history, sampler.recentAckPoints = latestTwo history →
    next.recentAckPoints = latestTwo (if sampler.overestimateAvoidance then points.reverse ++ history else history)

theorem Acks.refl (sampler : BandwidthSampler) : Acks sampler [] sampler.connectionStateMap sampler where
  connectionStateMap := rfl
  overestimateAvoidance := rfl
  recentAckPoints history same := by
    rw [List.reverse_nil, List.nil_append, ite_self]
    exact same

theorem Acks.trans {middle : BandwidthSampler} {first second : List AckPoint}
    {map lastMap : ConnectionStateMap ConnectionStateOnSentPacket} (earlier : Acks sampler first map middle)
    (later : Acks middle second lastMap next) : Acks sampler (first ++ second) lastMap next where
  connectionStateMap := later.connectionStateMap
  overestimateAvoidance := later.overestimateAvoidance.trans earlier.overestimateAvoidance
  recentAckPoints history same := by
    have both := later.recentAckPoints _ (earlier.recentAckPoints history same)
    rw [earlier.overestimateAvoidance] at both
    rw [both]
    split
    · rw [List.reverse_append, List.append_assoc]
    · rfl

theorem pointed_latestTwo {history : List AckPoint} (same : sampler.recentAckPoints = latestTwo history) (ackTime : Int)
    (totalBytesAcked : Nat) : sampler.pointed ackTime totalBytesAcked =
      latestTwo (if sampler.overestimateAvoidance then [⟨ackTime, totalBytesAcked⟩].reverse ++ history else history) := by
  rw [pointed, same]
  split
  · cases history <;> rfl
  · rfl

theorem choice_exists (sampler : BandwidthSampler) (totalBytesAcked : Nat) :
    ∃ choice, (if sampler.overestimateAvoidance then
        chooseA0Point totalBytesAcked sampler.chooseA0PointFix sampler.a0Candidates
      else (none, sampler.a0Candidates)) = choice ∧
      choice.2.Sublist sampler.a0Candidates ∧ ∀ point ∈ choice.1, point ∈ sampler.a0Candidates := by
  refine ⟨_, rfl, ?_⟩
  split
  · exact chooseA0Point_spec totalBytesAcked sampler.chooseA0PointFix sampler.a0Candidates
  · exact ⟨.refl _, nofun⟩

theorem Sound.choose (sound : sampler.Sound rounds) {candidates : List AckPoint}
    (sublist : candidates.Sublist sampler.a0Candidates) : Sound { sampler with a0Candidates := candidates } rounds := by
  refine {
    sound with
    states := fun pktNum state found => (sound.states pktNum state found).mono (Nat.le_refl _) (Nat.le_refl _)
    candidates := sound.candidates.sublist sublist
    bounded := fun candidate member => sound.bounded candidate (sublist.subset member)
    avoids := fun avoids => ?_ }
  obtain ⟨newer, present, older, passed⟩ := sound.avoids avoids
  exact ⟨newer, present, older, fun more point second candidate member =>
    passed more point second candidate (sublist.subset member)⟩

theorem Sound.onPacketAcknowledged (sound : sampler.Sound rounds) (ackTime : Int) (pktNum : Nat) :
    ∃ sample next, onPacketAcknowledged .wraps sampler ackTime pktNum = some (sample, next) ∧ next.Sound rounds ∧
      (∀ result ∈ sample, result.stateAtSend.totalBytesAcked ≤ next.totalBytesAcked) ∧
      match (sampler.connectionStateMap.take pktNum).1 with
      | some state =>
        next.totalBytesAcked = sampler.totalBytesAcked + state.size ∧
          Acks sampler [⟨ackTime, sampler.totalBytesAcked + state.size⟩] (sampler.connectionStateMap.take pktNum).2 next
      | none =>
        next.totalBytesAcked = sampler.totalBytesAcked ∧
          Acks sampler [] (sampler.connectionStateMap.take pktNum).2 next := by
  have taken := sound.take pktNum sampler.totalBytesLost sampler.totalBytesNeutered pktNum
  have stored := (ConnectionStateMap.take_spec sound.sorted pktNum).1
  rw [BandwidthSampler.onPacketAcknowledged]
  cases found : (sampler.connectionStateMap.take pktNum).1 with
  | none =>
    simp only [found]
    refine ⟨none, _, rfl, taken, nofun, rfl, rfl, rfl, fun history same => ?_⟩
    rw [List.reverse_nil, List.nil_append, ite_self]
    exact same
  | some state =>
    have fits := sound.states pktNum state (stored.symm.trans found)
    obtain ⟨credited, credit, creditedSound, effects⟩ := taken.credit ackTime pktNum
      (fits.mono (Nat.le_refl _) (Nat.le_refl _))
    obtain ⟨rate, rated⟩ := sendRate_exists fits
    obtain ⟨⟨chosen, candidates⟩, is, sublist, among⟩ := choice_exists credited state.sendTimeState.totalBytesAcked
    have total : credited.totalBytesAcked = sampler.totalBytesAcked + state.size := effects.totalBytesAcked
    have more : sampler.totalBytesAcked ≤ credited.totalBytesAcked := total ▸ Nat.le_add_right _ _
    have before : (chosen.getD ⟨state.lastAckedPacketAckTime, state.sendTimeState.totalBytesAcked⟩).totalBytesAcked ≤
        credited.totalBytesAcked := by
      cases chosen with
      | none => exact fits.acked.trans more
      | some point => exact creditedSound.bounded point (among point rfl)
    obtain ⟨result, sampled, captured⟩ := sample_exists before ackTime state rate
    simp only [found, credit, rated, is, sampled, Option.bind_eq_bind, Option.bind_some]
    refine ⟨result, { credited with a0Candidates := candidates }, rfl, creditedSound.choose sublist, ?_, total, ?_⟩
    · intro sample is
      rw [captured sample is]
      exact fits.acked.trans more
    · refine ⟨effects.connectionStateMap, effects.overestimateAvoidance, fun history same => ?_⟩
      have sameSampler : ({ sampler with
          lastAckedPacket := pktNum
          connectionStateMap := (sampler.connectionStateMap.take pktNum).2 } : BandwidthSampler).recentAckPoints =
          latestTwo history := same
      exact effects.recentAckPoints.trans (pointed_latestTwo sameSampler ackTime _)

theorem Sound.acknowledge {loop : AckLoop} (sound : loop.sampler.Sound rounds) (ackTime : Int) (packet : Acked) :
    ∃ next, acknowledge .wraps ackTime loop packet = some next ∧ next.sampler.Sound rounds ∧
      match (loop.sampler.connectionStateMap.take packet.pktNum).1 with
      | some state =>
        next.sampler.totalBytesAcked = loop.sampler.totalBytesAcked + state.size ∧
          Acks loop.sampler [⟨ackTime, loop.sampler.totalBytesAcked + state.size⟩]
            (loop.sampler.connectionStateMap.take packet.pktNum).2 next.sampler
      | none =>
        next.sampler.totalBytesAcked = loop.sampler.totalBytesAcked ∧
          Acks loop.sampler [] (loop.sampler.connectionStateMap.take packet.pktNum).2 next.sampler := by
  obtain ⟨sample, sampler, acknowledged, kept, captured, effects⟩ := sound.onPacketAcknowledged ackTime packet.pktNum
  rw [BandwidthSampler.acknowledge, acknowledged]
  simp only [Option.bind_eq_bind, Option.bind_some]
  cases sample with
  | none => exact ⟨_, rfl, kept, effects⟩
  | some sample =>
    dsimp only
    rw [subUsize_of_le (captured sample rfl)]
    split
    · exact ⟨_, rfl, kept, effects⟩
    · exact ⟨_, rfl, kept, effects⟩

theorem Sound.acknowledgeAll {loop : AckLoop} (sound : loop.sampler.Sound rounds) (ackTime : Int) (packets : List Acked) :
    ∃ final, packets.foldlM (BandwidthSampler.acknowledge .wraps ackTime) loop = some final ∧ final.sampler.Sound rounds ∧
      Acks loop.sampler (credits ackTime loop.sampler.connectionStateMap loop.sampler.totalBytesAcked packets)
        (packets.foldl (fun map packet => (map.take packet.pktNum).2) loop.sampler.connectionStateMap) final.sampler := by
  induction packets generalizing loop with
  | nil => exact ⟨loop, rfl, sound, .refl _⟩
  | cons packet packets ih =>
    obtain ⟨next, acknowledged, nextSound, effects⟩ := sound.acknowledge ackTime packet
    obtain ⟨final, completed, finalSound, rest⟩ := ih nextSound
    refine ⟨final, ?_, finalSound, ?_⟩
    · rw [List.foldlM_cons, acknowledged]
      exact completed
    · rw [List.foldl_cons, credits]
      cases taken : loop.sampler.connectionStateMap.take packet.pktNum with
      | mk found map =>
        rw [taken] at effects
        cases found with
        | none =>
          obtain ⟨total, acks⟩ := effects
          rw [acks.connectionStateMap, total] at rest
          exact acks.trans rest
        | some state =>
          obtain ⟨total, acks⟩ := effects
          rw [acks.connectionStateMap, total] at rest
          exact acks.trans rest

theorem Sound.later {later : Nat} (sound : sampler.Sound rounds) (le : rounds ≤ later) : sampler.Sound later := by
  obtain ⟨threshold, reduces, ordered, copies⟩ := sound.tracker
  refine { sound with tracker := ⟨threshold, reduces, ordered.later le, copies⟩ }

theorem tracker_update {tracker : MaxAckHeightTracker} (sane : Measuring.Sane ⟨tracker, [], rounds⟩) (ack : AckHeight)
    (forward : rounds ≤ ack.roundTripCount) :
    ∃ result, tracker.update .wraps ack = some result ∧ Measuring.Sane ⟨result.1, [], ack.roundTripCount⟩ := by
  obtain ⟨next, stepped⟩ := sane.update_returns forward
  obtain ⟨kept, _⟩ := sane.step forward stepped
  obtain ⟨result, updated, same⟩ := Option.bind_eq_some_iff.mp stepped
  cases same
  exact ⟨result, updated, kept.threshold, kept.reduces, kept.ordered, kept.copies⟩

theorem lessRecentPoint_exists (avoids : Avoids sampler)
    (bounded : ∀ candidate ∈ sampler.a0Candidates, candidate.totalBytesAcked ≤ sampler.totalBytesAcked)
    (newly : sampler.totalBytesAckedAfterLastAckEvent < sampler.totalBytesAcked) (chooseA0PointFix : Bool) :
    ∃ point, sampler.recentAckPoints.lessRecentPoint chooseA0PointFix = some point ∧
      point.totalBytesAcked ≤ sampler.totalBytesAcked ∧
      ∀ candidate ∈ sampler.a0Candidates, candidate.totalBytesAcked ≤ point.totalBytesAcked := by
  obtain ⟨newest, is⟩ : ∃ newest, sampler.recentAckPoints.newer = some newest := by
    cases newest : sampler.recentAckPoints.newer with
    | none =>
      have := avoids.present newest
      omega
    | some point => exact ⟨point, rfl⟩
  have total := avoids.newer newest is
  have newestPast : newest.totalBytesAcked ≤ sampler.totalBytesAcked ∧
      ∀ candidate ∈ sampler.a0Candidates, candidate.totalBytesAcked ≤ newest.totalBytesAcked :=
    ⟨total.le, fun candidate member => (bounded candidate member).trans total.ge⟩
  cases second : sampler.recentAckPoints.older with
  | none =>
    refine ⟨newest, ?_, newestPast⟩
    rw [RecentAckPoints.lessRecentPoint, second, is]
    exact ite_self _
  | some older =>
    have olderPast : older.totalBytesAcked ≤ sampler.totalBytesAcked ∧
        ∀ candidate ∈ sampler.a0Candidates, candidate.totalBytesAcked ≤ older.totalBytesAcked :=
      ⟨avoids.older older second, avoids.passed newly older second⟩
    rw [RecentAckPoints.lessRecentPoint, second, is]
    split
    · by_cases zero : older.totalBytesAcked > 0
      · exact ⟨older, by simp [Option.filter, zero], olderPast⟩
      · exact ⟨newest, by simp [Option.filter, zero], newestPast⟩
    · exact ⟨older, rfl, olderPast⟩

theorem Sound.onAckEventEnd (sound : sampler.Sound rounds) (bandwidthEstimate : Bandwidth) (isNewMaxBandwidth : Bool)
    {roundTripCount : Nat} (forward : rounds ≤ roundTripCount) :
    ∃ extraAcked next, onAckEventEnd .wraps sampler bandwidthEstimate isNewMaxBandwidth roundTripCount =
        some (extraAcked, next) ∧ next.Sound roundTripCount ∧ Acks sampler [] sampler.connectionStateMap next := by
  rw [BandwidthSampler.onAckEventEnd, subUsize_of_le sound.after]
  simp only [Option.bind_eq_bind, Option.bind_some]
  by_cases nothing : sampler.totalBytesAcked - sampler.totalBytesAckedAfterLastAckEvent = 0
  · rw [if_pos nothing]
    exact ⟨0, sampler, rfl, sound.later forward, .refl _⟩
  · rw [if_neg nothing]
    have newly : sampler.totalBytesAckedAfterLastAckEvent < sampler.totalBytesAcked := by omega
    obtain ⟨⟨tracker, extraAcked⟩, updated, sane⟩ := tracker_update sound.tracker ⟨bandwidthEstimate,
      isNewMaxBandwidth, roundTripCount, sampler.lastSentPacket, sampler.lastAckedPacket, sampler.lastAckedPacketAckTime,
      sampler.totalBytesAcked - sampler.totalBytesAckedAfterLastAckEvent⟩ forward
    have ended : Sound { sampler with
        totalBytesAckedAfterLastAckEvent := sampler.totalBytesAcked
        maxAckHeightTracker := tracker } roundTripCount := by
      refine {
        sound with
        after := Nat.le_refl _
        states := fun pktNum state found => (sound.states pktNum state found).mono (Nat.le_refl _) (Nat.le_refl _)
        avoids := fun avoids => ?_
        tracker := sane }
      obtain ⟨newer, present, older, _⟩ := sound.avoids avoids
      exact ⟨newer, present, older, fun more => absurd more (Nat.lt_irrefl _)⟩
    rw [updated]
    simp only [Option.bind_some]
    split
    · rename_i starts
      obtain ⟨point, pushed, recent, past⟩ := lessRecentPoint_exists (sound.avoids starts.1) sound.bounded newly
        sampler.chooseA0PointFix
      rw [pushed]
      refine ⟨extraAcked, { sampler with
        totalBytesAckedAfterLastAckEvent := sampler.totalBytesAcked
        maxAckHeightTracker := tracker
        a0Candidates := sampler.a0Candidates ++ [point] }, rfl, ?_, rfl, rfl, (Acks.refl sampler).recentAckPoints⟩
      refine {
        ended with
        states := fun pktNum state found => (sound.states pktNum state found).mono (Nat.le_refl _) (Nat.le_refl _)
        candidates := List.pairwise_append.mpr ⟨sound.candidates, List.pairwise_singleton _ _, ?_⟩
        bounded := fun candidate member => ?_
        avoids := fun avoids => ?_ }
      · intro candidate member last inLast
        rw [List.mem_singleton.mp inLast]
        exact past candidate member
      · rcases List.mem_append.mp member with before | last
        · exact sound.bounded candidate before
        · rw [List.mem_singleton.mp last]
          exact recent
      · obtain ⟨newer, present, older, _⟩ := sound.avoids avoids
        exact ⟨newer, present, older, fun more => absurd more (Nat.lt_irrefl _)⟩
    · exact ⟨extraAcked, _, rfl, ended, rfl, rfl, (Acks.refl sampler).recentAckPoints⟩

theorem Sound.loseAll (sound : sampler.Sound rounds) (last : LastPacket) (packets : List Lost) :
    (packets.foldl lose (last, sampler)).2.Sound rounds ∧
      Acks sampler [] (packets.foldl (fun map packet => (map.take packet.packetNumber).2) sampler.connectionStateMap)
        (packets.foldl lose (last, sampler)).2 ∧
      (packets.foldl lose (last, sampler)).2.totalBytesAcked = sampler.totalBytesAcked := by
  induction packets generalizing sampler last with
  | nil => exact ⟨sound, .refl _, rfl⟩
  | cons packet packets ih =>
    have taken := sound.take packet.packetNumber (sampler.totalBytesLost + packet.bytesLost)
      sampler.totalBytesNeutered sampler.lastAckedPacket
    obtain ⟨kept, acks, total⟩ := ih taken (lose (last, sampler) packet).1
    exact ⟨kept, ⟨acks.connectionStateMap, acks.overestimateAvoidance, acks.recentAckPoints⟩, total⟩

def eventPoints (sampler : BandwidthSampler) (ackTime : Int) (ackedPackets : List Acked) (lostPackets : List Lost) :
    List AckPoint :=
  let map := lostPackets.foldl (fun map packet => (map.take packet.packetNumber).2) sampler.connectionStateMap
  credits ackTime map sampler.totalBytesAcked ackedPackets

/-- The packets that an event takes, in order. -/
def eventMap (sampler : BandwidthSampler) (ackedPackets : List Acked) (lostPackets : List Lost) :
    ConnectionStateMap ConnectionStateOnSentPacket :=
  let map := lostPackets.foldl (fun map packet => (map.take packet.packetNumber).2) sampler.connectionStateMap
  ackedPackets.foldl (fun map packet => (map.take packet.pktNum).2) map

theorem Sound.onCongestionEvent (sound : sampler.Sound rounds) (ackTime : Int) (ackedPackets : List Acked)
    (lostPackets : List Lost) (knownBandwidth : Option Bandwidth) (estBandwidthUpperBound : Bandwidth)
    {roundTripCount : Nat} (forward : rounds ≤ roundTripCount) :
    ∃ result next, onCongestionEvent .wraps sampler ackTime ackedPackets lostPackets knownBandwidth
        estBandwidthUpperBound roundTripCount = some (result, next) ∧ next.Sound roundTripCount ∧
      Acks sampler (sampler.eventPoints ackTime ackedPackets lostPackets) (sampler.eventMap ackedPackets lostPackets)
        next := by
  obtain ⟨lostSound, lostAcks, total⟩ := sound.loseAll .default lostPackets
  rw [BandwidthSampler.onCongestionEvent]
  generalize lostPackets.foldl lose (.default, sampler) = lost at lostSound lostAcks total
  obtain ⟨last, after⟩ := lost
  cases ackedPackets with
  | nil => exact ⟨_, after, rfl, lostSound.later forward, lostAcks⟩
  | cons packet packets =>
    have before : Sound (AckLoop.mk after .default .default).sampler rounds := lostSound
    obtain ⟨loop, acknowledged, loopSound, loopAcks⟩ := before.acknowledgeAll ackTime (packet :: packets)
    obtain ⟨extraAcked, next, ended, nextSound, endAcks⟩ := loopSound.onAckEventEnd
      (estimate (maxBandwidth loop.eventSample.sampleMaxBandwidth knownBandwidth) estBandwidthUpperBound)
      (above loop.eventSample.sampleMaxBandwidth knownBandwidth) forward
    simp only [List.isEmpty_cons, Bool.false_eq_true, if_false, acknowledged, ended, Option.bind_eq_bind,
      Option.bind_some]
    refine ⟨_, next, rfl, nextSound, ?_⟩
    have all := (lostAcks.trans loopAcks).trans endAcks
    rw [List.nil_append, List.append_nil, loopAcks.connectionStateMap, total, lostAcks.connectionStateMap] at all
    exact all

end BandwidthSampler

end Quiche.Bbr
