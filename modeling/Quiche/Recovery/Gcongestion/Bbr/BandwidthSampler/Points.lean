import Quiche.Recovery.Gcongestion.Bbr.BandwidthSampler.Sound

namespace Quiche.Bbr

open Data Gcongestion BandwidthSampler

inductive SamplerOp where
  | onPacketSent (sentTime : Int) (packetNumber bytes bytesInFlight : Nat) (hasRetransmittableData : Bool)
  | onPacketNeutered (packetNumber : Nat)
  | onCongestionEvent (ackTime : Int) (ackedPackets : List Acked) (lostPackets : List Lost)
      (maxBandwidth : Option Bandwidth) (estBandwidthUpperBound : Bandwidth) (roundTripCount : Nat)
  | onAppLimited
  | removeObsoletePackets (leastAcked : Nat)

structure Sampling where
  sampler : BandwidthSampler
  sent : Option Nat
  roundTripCount : Nat
  history : List AckPoint
  calls : List (StateMapOp ConnectionStateOnSentPacket)

/-- The most recent point and the most recent one at another time. -/
def documented : List AckPoint → RecentAckPoints
  | [] => ⟨none, none⟩
  | newest :: earlier => ⟨earlier.find? fun point => point.ackTime ≠ newest.ackTime, some newest⟩

/-- The last two ack points are at distinct times. -/
def Spread : List AckPoint → Prop
  | newest :: second :: _ => newest.ackTime ≠ second.ackTime
  | _ => True

theorem latestTwo_eq_documented (history : List AckPoint) : latestTwo history = documented history ↔ Spread history := by
  match history with
  | [] => exact iff_of_true rfl trivial
  | [newest] => exact iff_of_true rfl trivial
  | newest :: second :: rest =>
    simp only [latestTwo, documented, Spread, List.find?_cons]
    by_cases same : newest.ackTime = second.ackTime
    · refine iff_of_false (fun equal => ?_) (fun differ => differ same)
      have found := (RecentAckPoints.mk.inj equal).1
      simp only [same, ne_eq, not_true_eq_false, decide_false] at found
      have differs := List.find?_some found.symm
      simp at differs
    · refine iff_of_true ?_ same
      simp [Ne.symm same]

namespace Sampling

def start (window : Nat) (overestimateAvoidance chooseA0PointFix : Bool) (sentTime ackTime : Int) : Sampling :=
  ⟨.new window overestimateAvoidance chooseA0PointFix sentTime ackTime, none, 0, [], []⟩

def step (checks : OverflowChecks) (sampling : Sampling) : SamplerOp → Option Sampling
  | .onPacketSent sentTime packetNumber bytes bytesInFlight hasRetransmittableData => do
    let sampler ← sampling.sampler.onPacketSent sentTime packetNumber bytes bytesInFlight hasRetransmittableData
    let counted ← sampling.sampler.count sentTime packetNumber bytes bytesInFlight
    let told := { sampling with sampler, sent := some packetNumber }
    if hasRetransmittableData then
      return { told with
        history :=
          if bytesInFlight = 0 ∧ sampling.sampler.overestimateAvoidance then
            [⟨sentTime, sampling.sampler.totalBytesAcked⟩]
          else sampling.history
        calls := sampling.calls ++
          [.insert packetNumber (counted.stateOnSent sentTime bytes (bytesInFlight + bytes))] }
    else return told
  | .onPacketNeutered packetNumber =>
    some { sampling with
      sampler := sampling.sampler.onPacketNeutered packetNumber
      calls := sampling.calls ++ [.take packetNumber] }
  | .onCongestionEvent ackTime ackedPackets lostPackets maxBandwidth estBandwidthUpperBound roundTripCount => do
    let (_, sampler) ← sampling.sampler.onCongestionEvent checks ackTime ackedPackets lostPackets maxBandwidth
      estBandwidthUpperBound roundTripCount
    let points := sampling.sampler.eventPoints ackTime ackedPackets lostPackets
    return { sampling with
      sampler
      roundTripCount
      history :=
        if sampling.sampler.overestimateAvoidance then points.reverse ++ sampling.history else sampling.history
      calls := sampling.calls ++ (lostPackets.map fun packet => .take packet.packetNumber) ++
        ackedPackets.map fun packet => .take packet.pktNum }
  | .onAppLimited => some { sampling with sampler := sampling.sampler.onAppLimited }
  | .removeObsoletePackets leastAcked =>
    some { sampling with
      sampler := sampling.sampler.removeObsoletePackets leastAcked
      calls := sampling.calls ++ [.removeObsolete leastAcked] }

def machine (checks : OverflowChecks) : Machine Sampling SamplerOp := ⟨step checks⟩

/-- Packet numbers increase, and rounds do not go back. -/
def Admitted (sampling : Sampling) : SamplerOp → Prop
  | .onPacketSent _ packetNumber _ _ _ => ∀ last ∈ sampling.sent, last < packetNumber
  | .onCongestionEvent _ _ _ _ _ roundTripCount => sampling.roundTripCount ≤ roundTripCount
  | _ => True

/-- The stored points are the last two at distinct times. -/
def Documented (sampling : Sampling) : Prop := sampling.sampler.recentAckPoints = documented sampling.history

instance (sampling : Sampling) : Decidable sampling.Documented := inferInstanceAs (Decidable (_ = _))

instance (sampling : Sampling) : ∀ op, Decidable (sampling.Admitted op)
  | .onPacketSent _ _ _ _ _ => inferInstanceAs (Decidable (∀ last ∈ sampling.sent, _))
  | .onCongestionEvent _ _ _ _ _ _ => inferInstanceAs (Decidable (_ ≤ _))
  | .onPacketNeutered _ => inferInstanceAs (Decidable True)
  | .onAppLimited => inferInstanceAs (Decidable True)
  | .removeObsoletePackets _ => inferInstanceAs (Decidable True)

/-- An event that avoids overestimates credits one packet at most, at another time than the newest point. -/
def Distinct (sampling : Sampling) : SamplerOp → Prop
  | .onCongestionEvent ackTime ackedPackets lostPackets _ _ _ =>
    sampling.sampler.overestimateAvoidance = true →
      (sampling.sampler.eventPoints ackTime ackedPackets lostPackets).length = 0 ∨
        (sampling.sampler.eventPoints ackTime ackedPackets lostPackets).length = 1 ∧
          ∀ point ∈ sampling.sampler.recentAckPoints.newer, point.ackTime ≠ ackTime
  | _ => True

instance (sampling : Sampling) : ∀ op, Decidable (sampling.Distinct op)
  | .onCongestionEvent .. => inferInstanceAs (Decidable (_ → _ ∨ _ ∧ ∀ point ∈ sampling.sampler.recentAckPoints.newer, _))
  | .onPacketSent .. | .onPacketNeutered _ | .onAppLimited | .removeObsoletePackets _ => .isTrue trivial

/-- The sampler is sound, its map is that of the calls so far, and its points are the last two. -/
structure Kept (sampling : Sampling) : Prop where
  sound : sampling.sampler.Sound sampling.roundTripCount
  traced : (StateMapOp.machine _).run [] sampling.calls = some sampling.sampler.connectionStateMap
  inserted : ∀ pktNum state, .insert pktNum state ∈ sampling.calls → ∃ last ∈ sampling.sent, pktNum ≤ last
  points : sampling.sampler.recentAckPoints = latestTwo sampling.history

variable {sampling next : Sampling}

theorem start_kept (window : Nat) (overestimateAvoidance chooseA0PointFix : Bool) (sentTime ackTime : Int) :
    (start window overestimateAvoidance chooseA0PointFix sentTime ackTime).Kept where
  sound := new_sound window overestimateAvoidance chooseA0PointFix sentTime ackTime
  traced := rfl
  inserted _ _ member := absurd member List.not_mem_nil
  points := rfl

theorem Kept.documented_iff (kept : sampling.Kept) : sampling.Documented ↔ Spread sampling.history := by
  rw [Documented, kept.points]
  exact latestTwo_eq_documented sampling.history

theorem Kept.below (kept : sampling.Kept) {packetNumber : Nat} (above : ∀ last ∈ sampling.sent, last < packetNumber) :
    ∀ entry ∈ sampling.sampler.connectionStateMap, entry.1 < packetNumber := by
  intro entry member
  rcases StateMapOp.mem_of_run kept.traced member with ⟨_, nothing, _⟩ | ⟨state, inserted⟩
  · cases nothing
  · obtain ⟨last, is, le⟩ := kept.inserted entry.1 state inserted
    exact Nat.lt_of_le_of_lt le (above last is)

theorem spread_append {points history : List AckPoint} {ackTime : Int} (one : ∀ point ∈ points, point.ackTime = ackTime)
    (spread : Spread history) : Spread (points.reverse ++ history) ↔
      points.length = 0 ∨ points.length = 1 ∧ ∀ point ∈ history.head?, point.ackTime ≠ ackTime := by
  match points with
  | [] => simp [spread]
  | [point] =>
    have time := one point (List.mem_singleton.mpr rfl)
    cases history with
    | nil => simp [Spread]
    | cons newest rest => simp [Spread, time, eq_comm]
  | first :: second :: rest =>
    have times : ∀ point ∈ (first :: second :: rest).reverse, point.ackTime = ackTime :=
      fun point member => one point (List.mem_reverse.mp member)
    refine iff_of_false ?_ (by simp)
    generalize listed : (first :: second :: rest).reverse = newest at times
    have two : 2 ≤ newest.length := by
      rw [← listed]
      simp
    match newest with
    | last :: before :: _ =>
      have lastTime := times last List.mem_cons_self
      have beforeTime := times before (List.mem_cons_of_mem _ List.mem_cons_self)
      exact fun spread => spread (lastTime.trans beforeTime.symm)

variable {map : ConnectionStateMap ConnectionStateOnSentPacket}

theorem credits_time {ackTime : Int} {totalBytesAcked : Nat}
    {packets : List Acked} : ∀ point ∈ credits ackTime map totalBytesAcked packets, point.ackTime = ackTime := by
  induction packets generalizing map totalBytesAcked with
  | nil => exact fun _ member => absurd member List.not_mem_nil
  | cons packet packets ih =>
    rw [credits]
    split
    · intro point member
      rcases List.mem_cons.mp member with rfl | later
      · rfl
      · exact ih point later
    · exact ih

theorem traced_append {sampler : BandwidthSampler} {calls more : List (StateMapOp ConnectionStateOnSentPacket)}
    (traced : (StateMapOp.machine _).run [] calls = some sampler.connectionStateMap)
    (next : (StateMapOp.machine _).run sampler.connectionStateMap more = some map) :
    (StateMapOp.machine _).run [] (calls ++ more) = some map := by
  rw [Machine.run_append, traced]
  exact next

theorem Kept.sends (kept : sampling.Kept) (sentTime : Int) {packetNumber : Nat} (bytes bytesInFlight : Nat)
    (above : ∀ last ∈ sampling.sent, last < packetNumber) (hasRetransmittableData : Bool) :
    ∃ next, (machine .wraps).step sampling
        (.onPacketSent sentTime packetNumber bytes bytesInFlight hasRetransmittableData) = some next ∧ next.Kept ∧
      (Spread sampling.history → Spread next.history) := by
  have forward : ∀ pktNum, (∃ last ∈ sampling.sent, pktNum ≤ last) → ∃ last ∈ some packetNumber, pktNum ≤ last := by
    rintro pktNum ⟨last, is, le⟩
    exact ⟨packetNumber, rfl, le.trans (Nat.le_of_lt (above last is))⟩
  obtain ⟨counted, sampler, counts, sent, sound, inserted, _, points⟩ :=
    kept.sound.onPacketSent sentTime bytes bytesInFlight (kept.below above)
  cases hasRetransmittableData with
  | false =>
    refine ⟨{ sampling with
      sampler := { sampling.sampler with lastSentPacket := packetNumber }
      sent := some packetNumber }, ?_, ?_, id⟩
    · simp only [machine, step, counts, Option.bind_eq_bind, Option.bind_some]
      rfl
    · refine ⟨?_, kept.traced, fun pktNum state member => forward pktNum (kept.inserted pktNum state member), kept.points⟩
      exact kept.sound.renumber packetNumber
  | true =>
    simp only [machine, step, sent, counts, Option.bind_eq_bind, Option.bind_some, if_true]
    refine ⟨_, rfl, ⟨sound, ?_, ?_, ?_⟩, ?_⟩
    · apply traced_append kept.traced
      rw [Machine.run]
      exact (congrArg (Option.bind · _) inserted).trans rfl
    · intro pktNum state member
      rcases List.mem_append.mp member with before | last
      · exact forward pktNum (kept.inserted pktNum state before)
      · cases List.mem_singleton.mp last
        exact ⟨packetNumber, rfl, Nat.le_refl _⟩
    · dsimp only
      rw [points, opened]
      split
      · rfl
      · exact kept.points
    · intro spread
      dsimp only
      split
      · trivial
      · exact spread

theorem Kept.event (kept : sampling.Kept) (ackTime : Int) (ackedPackets : List Acked) (lostPackets : List Lost)
    (maxBandwidth : Option Bandwidth) (estBandwidthUpperBound : Bandwidth) {roundTripCount : Nat}
    (forward : sampling.roundTripCount ≤ roundTripCount) :
    ∃ next, (machine .wraps).step sampling (.onCongestionEvent ackTime ackedPackets lostPackets maxBandwidth
        estBandwidthUpperBound roundTripCount) = some next ∧ next.Kept ∧
      (Spread sampling.history → (Spread next.history ↔ sampling.Distinct (.onCongestionEvent ackTime ackedPackets
        lostPackets maxBandwidth estBandwidthUpperBound roundTripCount))) := by
  obtain ⟨result, sampler, event, sound, acks⟩ := kept.sound.onCongestionEvent ackTime ackedPackets lostPackets
    maxBandwidth estBandwidthUpperBound forward
  simp only [machine, step, event, Option.bind_eq_bind, Option.bind_some]
  refine ⟨_, rfl, ⟨sound, ?_, ?_, acks.recentAckPoints _ kept.points⟩, fun spread => ?_⟩
  · rw [List.append_assoc]
    apply traced_append kept.traced
    rw [Machine.run_append, StateMapOp.run_takes]
    exact (StateMapOp.run_takes _ _ _).trans (congrArg some acks.connectionStateMap.symm)
  · intro pktNum state member
    simp only [List.mem_append, List.mem_map, reduceCtorEq, and_false, exists_false, or_false] at member
    exact kept.inserted pktNum state member
  · have newest : sampling.sampler.recentAckPoints.newer = sampling.history.head? :=
      congrArg RecentAckPoints.newer kept.points
    simp only [Distinct, newest]
    by_cases avoids : sampling.sampler.overestimateAvoidance = true
    · rw [if_pos avoids, eventPoints, spread_append credits_time spread]
      exact ⟨fun holds _ => holds, fun holds => holds avoids⟩
    · rw [if_neg avoids]
      exact iff_of_true spread fun avoiding => absurd avoiding avoids

theorem Kept.step (kept : sampling.Kept) {op : SamplerOp} (admitted : sampling.Admitted op) :
    ∃ next, (machine .wraps).step sampling op = some next ∧ next.Kept ∧
      (Spread sampling.history → (Spread next.history ↔ sampling.Distinct op)) := by
  cases op with
  | onPacketSent sentTime packetNumber bytes bytesInFlight hasRetransmittableData =>
    obtain ⟨next, stepped, nextKept, spreads⟩ := kept.sends sentTime bytes bytesInFlight admitted hasRetransmittableData
    exact ⟨next, stepped, nextKept, fun spread => iff_of_true (spreads spread) trivial⟩
  | onPacketNeutered packetNumber =>
    refine ⟨_, rfl, ⟨?_, traced_append kept.traced rfl, ?_, kept.points⟩, fun spread => iff_of_true spread trivial⟩
    · exact kept.sound.take packetNumber _ _ _
    · intro pktNum state member
      simp only [List.mem_append, List.mem_singleton, reduceCtorEq, or_false] at member
      exact kept.inserted pktNum state member
  | onCongestionEvent ackTime ackedPackets lostPackets maxBandwidth estBandwidthUpperBound roundTripCount =>
    exact kept.event ackTime ackedPackets lostPackets maxBandwidth estBandwidthUpperBound admitted
  | onAppLimited =>
    exact ⟨_, rfl, ⟨kept.sound.onAppLimited, kept.traced, kept.inserted, kept.points⟩,
      fun spread => iff_of_true spread trivial⟩
  | removeObsoletePackets leastAcked =>
    refine ⟨_, rfl, ⟨kept.sound.removeObsolete leastAcked, traced_append kept.traced rfl, ?_, kept.points⟩,
      fun spread => iff_of_true spread trivial⟩
    intro pktNum state member
    simp only [List.mem_append, List.mem_singleton, reduceCtorEq, or_false] at member
    exact kept.inserted pktNum state member

/-- The last two points of the run are at distinct times. -/
structure Orderly (sampling : Sampling) : Prop where
  kept : sampling.Kept
  spread : Spread sampling.history

/-- In any run with increasing packet numbers and rounds that do not go back every call returns, the candidates are
in the order of their bytes, taking a packet returns what was stored for it and is still there, and the ack points
are as documented throughout exactly if all acknowledgements are distinct. -/
theorem sampler_sound (window : Nat) (overestimateAvoidance chooseA0PointFix : Bool) (sentTime ackTime : Int)
    {ops : List SamplerOp} (admitted : (machine .wraps).Guarded Admitted
      (start window overestimateAvoidance chooseA0PointFix sentTime ackTime) ops) :
    (∃ final, (machine .wraps).run (start window overestimateAvoidance chooseA0PointFix sentTime ackTime) ops =
        some final ∧
      (final.sampler.a0Candidates.Pairwise fun first second => first.totalBytesAcked ≤ second.totalBytesAcked) ∧
      ∀ pktNum state, (final.sampler.connectionStateMap.take pktNum).1 = some state ↔
        StateMapOp.Remains final.calls pktNum state) ∧
    ((machine .wraps).Guarded (fun state op => ∀ next, (machine .wraps).step state op = some next → next.Documented)
        (start window overestimateAvoidance chooseA0PointFix sentTime ackTime) ops ↔
      (machine .wraps).Guarded Distinct (start window overestimateAvoidance chooseA0PointFix sentTime ackTime) ops) := by
  have initial := start_kept window overestimateAvoidance chooseA0PointFix sentTime ackTime
  constructor
  · have returns : ∀ sampling op, Kept sampling → Admitted sampling op →
        ∃ next, (machine .wraps).step sampling op = some next ∧ next.Kept := by
      intro sampling op kept admitted
      obtain ⟨next, stepped, nextKept, _⟩ := kept.step admitted
      exact ⟨next, stepped, nextKept⟩
    obtain ⟨final, completed, kept⟩ := (machine .wraps).run_total_of_guarded returns initial admitted
    exact ⟨final, completed, kept.sound.candidates, StateMapOp.take_iff_remains kept.traced⟩
  · have same : ∀ sampling op, Orderly sampling → Admitted sampling op →
        ((∀ next, (machine .wraps).step sampling op = some next → next.Documented) ↔ Distinct sampling op) := by
      intro sampling op orderly admitted
      obtain ⟨next, stepped, nextKept, exactly⟩ := orderly.kept.step admitted
      rw [← exactly orderly.spread, ← nextKept.documented_iff]
      constructor
      · exact fun documented => documented next stepped
      · intro documented other otherStepped
        cases stepped.symm.trans otherStepped
        exact documented
    have preserved : ∀ sampling op next, Orderly sampling → Admitted sampling op →
        (∀ next, (machine .wraps).step sampling op = some next → next.Documented) →
        (machine .wraps).step sampling op = some next → Orderly next := by
      intro sampling op next orderly admitted documented stepped
      obtain ⟨other, otherStepped, nextKept, _⟩ := orderly.kept.step admitted
      cases stepped.symm.trans otherStepped
      exact ⟨nextKept, nextKept.documented_iff.mp (documented next stepped)⟩
    exact (machine .wraps).guarded_iff same preserved ⟨initial, trivial⟩ admitted

/-- Four packets: two are acknowledged at two times, one is lost and one neutered. -/
def fourPackets : List SamplerOp := [.onPacketSent 0 0 1200 0 true, .onPacketSent 0 1 1200 1200 true,
    .onCongestionEvent (30 * 10 ^ 6) [⟨0, 0⟩] [] (some .zero) .infinite 1,
    .onPacketSent (35 * 10 ^ 6) 2 1200 1200 true, .onAppLimited, .onPacketSent (36 * 10 ^ 6) 3 1200 2400 true,
    .onCongestionEvent (70 * 10 ^ 6) [⟨2, 35 * 10 ^ 6⟩] [⟨1, 1200⟩] (some .zero) .infinite 2, .onPacketNeutered 3,
    .removeObsoletePackets 4]

theorem sampler_sound_four_packets : (∃ final, (machine .wraps).run (start 10 true false 0 0) fourPackets = some final ∧
      (final.sampler.a0Candidates.Pairwise fun first second => first.totalBytesAcked ≤ second.totalBytesAcked) ∧
      ∀ pktNum state, (final.sampler.connectionStateMap.take pktNum).1 = some state ↔
        StateMapOp.Remains final.calls pktNum state) ∧
    (machine .wraps).Guarded (fun state op => ∀ next, (machine .wraps).step state op = some next → next.Documented)
      (start 10 true false 0 0) fourPackets := by
  have admitted : (machine .wraps).Guarded Admitted (start 10 true false 0 0) fourPackets := by decide +kernel
  have distinct : (machine .wraps).Guarded Distinct (start 10 true false 0 0) fourPackets := by decide +kernel
  obtain ⟨returns, exactly⟩ := sampler_sound 10 true false 0 0 admitted
  exact ⟨returns, exactly.mpr distinct⟩

def twoPackets : List SamplerOp := [.onPacketSent 0 0 1200 0 true, .onPacketSent 0 1 1200 1200 true,
    .onCongestionEvent (30 * 10 ^ 6) [⟨0, 0⟩, ⟨1, 0⟩] [] (some .zero) .infinite 1]

/-- Both points are at the time of the one acknowledgement. -/
theorem points_at_one_time : (machine .wraps).Guarded Admitted (start 10 true false 0 0) twoPackets ∧
      ∃ final, (machine .wraps).run (start 10 true false 0 0) twoPackets = some final ∧
        final.sampler.recentAckPoints = ⟨some ⟨30 * 10 ^ 6, 1200⟩, some ⟨30 * 10 ^ 6, 2400⟩⟩ ∧ ¬ final.Documented := by
  decide +kernel

end Sampling

end Quiche.Bbr
