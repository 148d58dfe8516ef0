import Mathlib.Data.Prod.Lex
import Quiche.Data.Machine
import Quiche.Recovery.Bandwidth
import Quiche.Recovery.Gcongestion.WindowedFilter

namespace Quiche.Gcongestion

open Data

structure ExtraAckedEvent where
  extraAcked : Nat
  bytesAcked : Nat
  timeDelta : Nat
  round : Nat
deriving DecidableEq

namespace ExtraAckedEvent

def fields (event : ExtraAckedEvent) : Nat ×ₗ Nat ×ₗ Nat ×ₗ Nat :=
  toLex (event.extraAcked, toLex (event.bytesAcked, toLex (event.timeDelta, event.round)))

theorem fields_injective : Function.Injective fields := by
  rintro ⟨extraAcked, bytesAcked, timeDelta, round⟩ ⟨otherExtra, otherBytes, otherDelta, otherRound⟩ same
  simp only [fields, EmbeddingLike.apply_eq_iff_eq, Prod.mk.injEq] at same
  obtain ⟨rfl, rfl, rfl, rfl⟩ := same
  rfl

instance : LinearOrder ExtraAckedEvent := LinearOrder.lift' fields fields_injective

/-- `unwrap_or_default` -/
def default : ExtraAckedEvent := ⟨0, 0, 0, 0⟩

end ExtraAckedEvent

structure MaxAckHeightTracker where
  maxAckHeightFilter : WindowedFilter ExtraAckedEvent
  aggregationEpochStartTime : Option Int
  aggregationEpochBytes : Nat
  lastSentPacketNumberBeforeEpoch : Nat
  numAckAggregationEpochs : Nat
  ackAggregationBandwidthThreshold : Nat
  startNewAggregationEpochAfterFullRound : Bool
  reduceExtraAckedOnBandwidthIncrease : Bool

/-- The arguments of `update`. -/
structure AckHeight where
  bandwidthEstimate : Bandwidth
  isNewMaxBandwidth : Bool
  roundTripCount : Nat
  lastSentPacketNumber : Nat
  lastAckedPacketNumber : Nat
  ackTime : Int
  bytesAcked : Nat

namespace MaxAckHeightTracker

def new (window : Nat) (overestimateAvoidance : Bool) : MaxAckHeightTracker where
  maxAckHeightFilter := .new window
  aggregationEpochStartTime := none
  aggregationEpochBytes := 0
  lastSentPacketNumberBeforeEpoch := 0
  numAckAggregationEpochs := 0
  ackAggregationBandwidthThreshold := if overestimateAvoidance then 2 else 1
  startNewAggregationEpochAfterFullRound := true
  reduceExtraAckedOnBandwidthIncrease := true

def reinsert (checks : OverflowChecks) (bandwidthEstimate : Bandwidth) (event : ExtraAckedEvent)
    (filter : WindowedFilter ExtraAckedEvent) : Option (WindowedFilter ExtraAckedEvent) := do
  let expectedBytesAcked ← bandwidthEstimate.toBytesPerPeriod checks event.timeDelta
  if expectedBytesAcked.toNat < event.bytesAcked then
    filter.update { event with extraAcked := event.bytesAcked - expectedBytesAcked.toNat } event.round
  else return filter

/-- The part of `update` for a new maximum of the bandwidth. -/
def rebuild (checks : OverflowChecks) (bandwidthEstimate : Bandwidth) (filter : WindowedFilter ExtraAckedEvent) :
    Option (WindowedFilter ExtraAckedEvent) := do
  -- Save and clear existing entries.
  let best := filter.getBest.getD .default
  let secondBest := filter.getSecondBest.getD .default
  let thirdBest := filter.getThirdBest.getD .default
  -- Reinsert the heights into the filter after recalculating.
  let filter ← reinsert checks bandwidthEstimate best filter.clear
  let filter ← reinsert checks bandwidthEstimate secondBest filter
  reinsert checks bandwidthEstimate thirdBest filter

def startEpoch (tracker : MaxAckHeightTracker) (ack : AckHeight) : MaxAckHeightTracker :=
  { tracker with
    aggregationEpochBytes := ack.bytesAcked
    aggregationEpochStartTime := some ack.ackTime
    lastSentPacketNumberBeforeEpoch := ack.lastSentPacketNumber
    numAckAggregationEpochs := tracker.numAckAggregationEpochs + 1 }

/-- The part of `update` within an epoch. The bytes that are expected are far below `2 ^ 53`, so that
their product with the threshold is exact. -/
def measure (checks : OverflowChecks) (tracker : MaxAckHeightTracker) (ack : AckHeight) (epochStartTime : Int) :
    Option (MaxAckHeightTracker × Nat) := do
  let aggregationDelta := (ack.ackTime - epochStartTime).toNat
  let expectedBytesAcked ← ack.bandwidthEstimate.toBytesPerPeriod checks aggregationDelta
  if tracker.aggregationEpochBytes ≤ tracker.ackAggregationBandwidthThreshold * expectedBytesAcked.toNat then
    return (tracker.startEpoch ack, 0)
  else
    let aggregationEpochBytes := tracker.aggregationEpochBytes + ack.bytesAcked
    let extraBytesAcked ← subUsize aggregationEpochBytes expectedBytesAcked.toNat
    let maxAckHeightFilter ← tracker.maxAckHeightFilter.update
      ⟨extraBytesAcked, aggregationEpochBytes, aggregationDelta, 0⟩ ack.roundTripCount
    return ({ tracker with aggregationEpochBytes, maxAckHeightFilter }, extraBytesAcked)

def update (checks : OverflowChecks) (tracker : MaxAckHeightTracker) (ack : AckHeight) :
    Option (MaxAckHeightTracker × Nat) := do
  let maxAckHeightFilter ←
    if tracker.reduceExtraAckedOnBandwidthIncrease && ack.isNewMaxBandwidth then
      rebuild checks ack.bandwidthEstimate tracker.maxAckHeightFilter
    else some tracker.maxAckHeightFilter
  let tracker := { tracker with maxAckHeightFilter }
  let forceNewEpoch := tracker.startNewAggregationEpochAfterFullRound &&
    decide (ack.lastAckedPacketNumber > tracker.lastSentPacketNumberBeforeEpoch)
  match tracker.aggregationEpochStartTime with
  | some time => if forceNewEpoch then return (tracker.startEpoch ack, 0) else tracker.measure checks ack time
  | none => return (tracker.startEpoch ack, 0)

end MaxAckHeightTracker

theorem toBytesPerPeriod_wraps (bandwidth : Bandwidth) (timePeriod : Nat) :
    ∃ bytes, bandwidth.toBytesPerPeriod .wraps timePeriod = some bytes := ⟨_, rfl⟩

/-- More was acknowledged than the bandwidth gives for the time. -/
def ExtraAckedEvent.Exceeds (event : ExtraAckedEvent) (checks : OverflowChecks) (bandwidth : Bandwidth) : Prop :=
  ∃ expected, bandwidth.toBytesPerPeriod checks event.timeDelta = some expected ∧ expected.toNat < event.bytesAcked

instance (event : ExtraAckedEvent) (checks : OverflowChecks) (bandwidth : Bandwidth) :
    Decidable (event.Exceeds checks bandwidth) :=
  inferInstanceAs (Decidable (∃ expected ∈ bandwidth.toBytesPerPeriod checks event.timeDelta,
    expected.toNat < event.bytesAcked))

/-- The events are the same, up to the extra bytes. -/
structure SameEvent (first second : ExtraAckedEvent) : Prop where
  bytesAcked : first.bytesAcked = second.bytesAcked
  timeDelta : first.timeDelta = second.timeDelta
  round : first.round = second.round

section Rebuild

variable {checks : OverflowChecks} {bandwidth : Bandwidth} {event : ExtraAckedEvent}
  {filter next : WindowedFilter ExtraAckedEvent}

theorem reinsert_returns (ordered : filter.Ordered event.round) :
    ∃ next, MaxAckHeightTracker.reinsert .wraps bandwidth event filter = some next := by
  obtain ⟨expected, returned⟩ := toBytesPerPeriod_wraps bandwidth event.timeDelta
  rw [MaxAckHeightTracker.reinsert, returned]
  simp only [Option.bind_eq_bind, Option.bind_some]
  split
  · obtain ⟨next, updated, _⟩ := WindowedFilter.update_spec ordered (Nat.le_refl _)
      { event with extraAcked := event.bytesAcked - expected.toNat }
    exact ⟨next, updated⟩
  · exact ⟨filter, rfl⟩

theorem reinsert_spec (ordered : filter.Ordered event.round)
    (returned : MaxAckHeightTracker.reinsert checks bandwidth event filter = some next) :
    next.Ordered event.round ∧ next.windowLength = filter.windowLength ∧ ∀ entry ∈ next.held, entry ∈ filter.held ∨
        entry.time = event.round ∧ SameEvent entry.sample event ∧ event.Exceeds checks bandwidth := by
  obtain ⟨expected, product, rest⟩ := Option.bind_eq_some_iff.mp returned
  split at rest
  · rename_i exceeds
    obtain ⟨inserted, updated, window, nextOrdered, _, among⟩ := WindowedFilter.update_spec ordered (Nat.le_refl _)
      { event with extraAcked := event.bytesAcked - expected.toNat }
    cases updated.symm.trans rest
    refine ⟨nextOrdered, window, fun entry member => ?_⟩
    rcases among entry member with old | rfl
    · exact .inl old
    · exact .inr ⟨rfl, ⟨rfl, rfl, rfl⟩, expected, product, exceeds⟩
  · cases rest
    exact ⟨ordered, rfl, fun entry member => .inl member⟩

theorem clear_ordered (filter : WindowedFilter ExtraAckedEvent) (now : Nat) : filter.clear.Ordered now :=
  fun _ is => by cases is

theorem default_not_exceeds : ¬ ExtraAckedEvent.default.Exceeds checks bandwidth := by
  rintro ⟨expected, _, below⟩
  exact absurd below (Nat.not_lt_zero _)

/-- The event is stored still, if it exceeds the bandwidth. -/
structure Saved (checks : OverflowChecks) (bandwidth : Bandwidth) (filter : WindowedFilter ExtraAckedEvent)
    (event : ExtraAckedEvent) : Prop where
  round : event.round = 0
  old : event.Exceeds checks bandwidth → ∃ entry ∈ filter.held, entry.sample = event

theorem saved_of_pick (copies : ∀ entry ∈ filter.held, entry.sample.round = 0)
    (pick : Estimates ExtraAckedEvent → Sample ExtraAckedEvent)
    (among : ∀ estimates, pick estimates ∈ [estimates.best, estimates.second, estimates.third]) :
    Saved checks bandwidth filter ((filter.estimates.map fun estimates => (pick estimates).sample).getD .default) := by
  cases is : filter.estimates with
  | none => exact ⟨rfl, fun exceeds => absurd exceeds default_not_exceeds⟩
  | some estimates =>
    have member : pick estimates ∈ filter.held := by
      rw [WindowedFilter.held, is]
      exact among estimates
    exact ⟨copies _ member, fun _ => ⟨_, member, rfl⟩⟩

theorem saved_each (copies : ∀ entry ∈ filter.held, entry.sample.round = 0) :
    Saved checks bandwidth filter (filter.getBest.getD .default) ∧
      Saved checks bandwidth filter (filter.getSecondBest.getD .default) ∧
      Saved checks bandwidth filter (filter.getThirdBest.getD .default) :=
  ⟨saved_of_pick copies (·.best) (by simp), saved_of_pick copies (·.second) (by simp),
    saved_of_pick copies (·.third) (by simp)⟩

/-- The filter holds what is left of the events, all under time 0. -/
structure Rebuilt (checks : OverflowChecks) (bandwidth : Bandwidth) (filter next : WindowedFilter ExtraAckedEvent) :
    Prop where
  ordered : next.Ordered 0
  window : next.windowLength = filter.windowLength
  entries : ∀ entry ∈ next.held, entry.time = 0 ∧
    ∃ old ∈ filter.held, SameEvent entry.sample old.sample ∧ old.sample.Exceeds checks bandwidth

theorem Rebuilt.reinsert {middle : WindowedFilter ExtraAckedEvent} (rebuilt : Rebuilt checks bandwidth filter middle)
    (saved : Saved checks bandwidth filter event)
    (returned : MaxAckHeightTracker.reinsert checks bandwidth event middle = some next) :
    Rebuilt checks bandwidth filter next := by
  have ordered : middle.Ordered event.round := saved.round ▸ rebuilt.ordered
  obtain ⟨nextOrdered, window, among⟩ := reinsert_spec ordered returned
  refine ⟨saved.round ▸ nextOrdered, window.trans rebuilt.window, fun entry member => ?_⟩
  rcases among entry member with earlier | ⟨time, same, exceeds⟩
  · exact rebuilt.entries entry earlier
  · obtain ⟨old, held, rfl⟩ := saved.old exceeds
    exact ⟨time.trans saved.round, old, held, same, exceeds⟩

theorem rebuild_spec (copies : ∀ entry ∈ filter.held, entry.sample.round = 0)
    (returned : MaxAckHeightTracker.rebuild checks bandwidth filter = some next) :
    Rebuilt checks bandwidth filter next := by
  obtain ⟨best, second, third⟩ := saved_each copies
  have cleared : Rebuilt checks bandwidth filter filter.clear :=
    ⟨clear_ordered filter 0, rfl, fun entry member => absurd member List.not_mem_nil⟩
  obtain ⟨first, inserted, rest⟩ := Option.bind_eq_some_iff.mp returned
  obtain ⟨middle, inserted', last⟩ := Option.bind_eq_some_iff.mp rest
  exact ((cleared.reinsert best inserted).reinsert second inserted').reinsert third last

theorem rebuild_returns (copies : ∀ entry ∈ filter.held, entry.sample.round = 0) (bandwidth : Bandwidth) :
    ∃ next, MaxAckHeightTracker.rebuild .wraps bandwidth filter = some next := by
  obtain ⟨best, second, third⟩ := saved_each copies
  have cleared : Rebuilt .wraps bandwidth filter filter.clear :=
    ⟨clear_ordered filter 0, rfl, fun entry member => absurd member List.not_mem_nil⟩
  have inserts : ∀ event middle, Saved .wraps bandwidth filter event → Rebuilt .wraps bandwidth filter middle →
      ∃ next, MaxAckHeightTracker.reinsert .wraps bandwidth event middle = some next ∧
        Rebuilt .wraps bandwidth filter next := by
    intro event middle saved rebuilt
    obtain ⟨next, returned⟩ : ∃ next, MaxAckHeightTracker.reinsert .wraps bandwidth event middle = some next :=
      reinsert_returns (saved.round ▸ rebuilt.ordered)
    exact ⟨next, returned, rebuilt.reinsert saved returned⟩
  obtain ⟨first, inserted, firstRebuilt⟩ := inserts _ _ best cleared
  obtain ⟨middle, inserted', middleRebuilt⟩ := inserts _ _ second firstRebuilt
  obtain ⟨last, inserted'', _⟩ := inserts _ _ third middleRebuilt
  refine ⟨last, ?_⟩
  rw [MaxAckHeightTracker.rebuild]
  simp only [inserted, inserted', inserted'', Option.bind_eq_bind, Option.bind_some]

end Rebuild

structure Measurement where
  bytesAcked : Nat
  timeDelta : Nat
  round : Nat
deriving DecidableEq

structure Measuring where
  tracker : MaxAckHeightTracker
  measured : List Measurement
  roundTripCount : Nat

namespace Measuring

/-- What an update has measured, which is something if it returns extra bytes. -/
def measurement (tracker : MaxAckHeightTracker) (extraAcked : Nat) (ack : AckHeight) : List Measurement :=
  if extraAcked = 0 then []
  else
    let timeDelta := (tracker.aggregationEpochStartTime.map fun time => (ack.ackTime - time).toNat).getD 0
    [⟨tracker.aggregationEpochBytes, timeDelta, ack.roundTripCount⟩]

def machine (checks : OverflowChecks) : Machine Measuring AckHeight where
  step state ack := do
    let (tracker, extraAcked) ← state.tracker.update checks ack
    return ⟨tracker, state.measured ++ measurement tracker extraAcked ack, ack.roundTripCount⟩

def start (window : Nat) (overestimateAvoidance : Bool) : Measuring := ⟨.new window overestimateAvoidance, [], 0⟩

/-- The round does not go back. -/
def Forward (state : Measuring) (ack : AckHeight) : Prop := state.roundTripCount ≤ ack.roundTripCount

instance (state : Measuring) (ack : AckHeight) : Decidable (state.Forward ack) := inferInstanceAs (Decidable (_ ≤ _))

/-- The filter is only rebuilt while its events are of round 0. -/
def KeepsRounds (checks : OverflowChecks) (state : Measuring) (ack : AckHeight) : Prop :=
  ack.isNewMaxBandwidth = true → ∀ entry ∈ state.tracker.maxAckHeightFilter.held,
    entry.sample.Exceeds checks ack.bandwidthEstimate → entry.time = 0

instance (checks : OverflowChecks) (state : Measuring) (ack : AckHeight) : Decidable (state.KeepsRounds checks ack) :=
  inferInstanceAs (Decidable (ack.isNewMaxBandwidth = true → ∀ entry ∈ state.tracker.maxAckHeightFilter.held,
    entry.sample.Exceeds checks ack.bandwidthEstimate → entry.time = 0))

/-- What every call of the tracker keeps. -/
structure Sane (state : Measuring) : Prop where
  threshold : 1 ≤ state.tracker.ackAggregationBandwidthThreshold
  reduces : state.tracker.reduceExtraAckedOnBandwidthIncrease = true
  ordered : state.tracker.maxAckHeightFilter.Ordered state.roundTripCount
  copies : ∀ entry ∈ state.tracker.maxAckHeightFilter.held, entry.sample.round = 0

/-- Each event is stored under the round it was measured in. -/
def Dated (state : Measuring) : Prop := ∀ entry ∈ state.tracker.maxAckHeightFilter.held,
    ⟨entry.sample.bytesAcked, entry.sample.timeDelta, entry.time⟩ ∈ state.measured

variable {checks : OverflowChecks} {state next : Measuring} {ack : AckHeight}

theorem start_sane (window : Nat) (overestimateAvoidance : Bool) : (start window overestimateAvoidance).Sane where
  threshold := by
    cases overestimateAvoidance
    · exact Nat.le_refl 1
    · exact Nat.le_succ 1
  reduces := rfl
  ordered _ is := by cases is
  copies _ member := absurd member List.not_mem_nil

theorem start_dated (window : Nat) (overestimateAvoidance : Bool) : (start window overestimateAvoidance).Dated :=
  fun _ member => absurd member List.not_mem_nil

def rebuilt (checks : OverflowChecks) (tracker : MaxAckHeightTracker) (ack : AckHeight) :
    Option (WindowedFilter ExtraAckedEvent) :=
  if tracker.reduceExtraAckedOnBandwidthIncrease && ack.isNewMaxBandwidth then
    MaxAckHeightTracker.rebuild checks ack.bandwidthEstimate tracker.maxAckHeightFilter
  else some tracker.maxAckHeightFilter

theorem update_eq (tracker : MaxAckHeightTracker) (ack : AckHeight) :
    tracker.update checks ack = (rebuilt checks tracker ack).bind fun maxAckHeightFilter =>
      let tracker := { tracker with maxAckHeightFilter }
      match tracker.aggregationEpochStartTime with
      | some time =>
        if tracker.startNewAggregationEpochAfterFullRound &&
            decide (ack.lastAckedPacketNumber > tracker.lastSentPacketNumberBeforeEpoch) then
          some (tracker.startEpoch ack, 0)
        else tracker.measure checks ack time
      | none => some (tracker.startEpoch ack, 0) := by
  rw [MaxAckHeightTracker.update, rebuilt]
  split <;> rfl

/-- The filter after a rebuild, with the new event in it. -/
structure Refilled (checks : OverflowChecks) (state : Measuring) (ack : AckHeight)
    (filter : WindowedFilter ExtraAckedEvent) : Prop where
  ordered : filter.Ordered state.roundTripCount
  window : filter.windowLength = state.tracker.maxAckHeightFilter.windowLength
  copies : ∀ entry ∈ filter.held, entry.sample.round = 0
  dated : state.Dated → state.KeepsRounds checks ack → ∀ entry ∈ filter.held,
    ⟨entry.sample.bytesAcked, entry.sample.timeDelta, entry.time⟩ ∈ state.measured

theorem Sane.rebuilt_returns (sane : state.Sane) (ack : AckHeight) :
    ∃ filter, rebuilt .wraps state.tracker ack = some filter := by
  rw [rebuilt]
  split
  · exact Gcongestion.rebuild_returns sane.copies ack.bandwidthEstimate
  · exact ⟨_, rfl⟩

theorem Sane.refills (sane : state.Sane) {filter : WindowedFilter ExtraAckedEvent}
    (returned : rebuilt checks state.tracker ack = some filter) : Refilled checks state ack filter := by
  rw [rebuilt] at returned
  split at returned
  · rename_i rebuilds
    obtain ⟨ordered, window, entries⟩ := rebuild_spec sane.copies returned
    refine ⟨ordered.later (Nat.zero_le _), window, fun entry member => ?_, fun dated keeps entry member => ?_⟩
    · obtain ⟨_, old, held, same, _⟩ := entries entry member
      exact same.round.trans (sane.copies old held)
    · obtain ⟨time, old, held, same, exceeds⟩ := entries entry member
      have oldTime := keeps (Bool.and_eq_true_iff.mp rebuilds).2 old held exceeds
      rw [same.bytesAcked, same.timeDelta, time, ← oldTime]
      exact dated old held
  · cases returned
    exact ⟨sane.ordered, rfl, sane.copies, fun dated _ => dated⟩

/-- How an update ends: with a new epoch, or with a measurement. -/
inductive Ends (tracker : MaxAckHeightTracker) (ack : AckHeight) (next : MaxAckHeightTracker) (extraAcked : Nat) :
    Prop where
  | started (is : next = tracker.startEpoch ack) (nothing : extraAcked = 0)
  | measured (timeDelta : Nat) (someExtra : extraAcked ≠ 0)
      (is : measurement next extraAcked ack = [⟨next.aggregationEpochBytes, timeDelta, ack.roundTripCount⟩])
      (threshold : next.ackAggregationBandwidthThreshold = tracker.ackAggregationBandwidthThreshold)
      (reduces : next.reduceExtraAckedOnBandwidthIncrease = tracker.reduceExtraAckedOnBandwidthIncrease)
      (updated : tracker.maxAckHeightFilter.update ⟨extraAcked, next.aggregationEpochBytes, timeDelta, 0⟩
        ack.roundTripCount = some next.maxAckHeightFilter)

theorem measure_ends {tracker after : MaxAckHeightTracker} {extraAcked : Nat} {time : Int}
    (threshold : 1 ≤ tracker.ackAggregationBandwidthThreshold) (since : tracker.aggregationEpochStartTime = some time)
    (returned : tracker.measure checks ack time = some (after, extraAcked)) : Ends tracker ack after extraAcked := by
  obtain ⟨expected, _, rest⟩ := Option.bind_eq_some_iff.mp returned
  split at rest
  · cases rest
    exact .started rfl rfl
  · rename_i more
    have least := Nat.mul_le_mul_right expected.toNat threshold
    obtain ⟨extra, difference, rest⟩ := Option.bind_eq_some_iff.mp rest
    obtain ⟨filter, updated, same⟩ := Option.bind_eq_some_iff.mp rest
    have enough : expected.toNat ≤ tracker.aggregationEpochBytes + ack.bytesAcked := by omega
    rw [subUsize_of_le enough] at difference
    cases difference
    cases same
    have someExtra : tracker.aggregationEpochBytes + ack.bytesAcked - expected.toNat ≠ 0 := by omega
    refine .measured (ack.ackTime - time).toNat someExtra ?_ rfl rfl updated
    rw [measurement, if_neg someExtra]
    simp only [since, Option.map_some, Option.getD_some]

theorem measure_returns (tracker : MaxAckHeightTracker) {now : Nat}
    (threshold : 1 ≤ tracker.ackAggregationBandwidthThreshold) (ordered : tracker.maxAckHeightFilter.Ordered now)
    (le : now ≤ ack.roundTripCount) (time : Int) : ∃ result, tracker.measure .wraps ack time = some result := by
  obtain ⟨expected, product⟩ := toBytesPerPeriod_wraps ack.bandwidthEstimate (ack.ackTime - time).toNat
  have least := Nat.mul_le_mul_right expected.toNat threshold
  rw [MaxAckHeightTracker.measure]
  simp only [product, Option.bind_eq_bind, Option.bind_some]
  split
  · exact ⟨_, rfl⟩
  · rename_i more
    have enough : expected.toNat ≤ tracker.aggregationEpochBytes + ack.bytesAcked := by omega
    obtain ⟨filter, updated, _⟩ := WindowedFilter.update_spec ordered le
      ⟨tracker.aggregationEpochBytes + ack.bytesAcked - expected.toNat, tracker.aggregationEpochBytes + ack.bytesAcked,
        (ack.ackTime - time).toNat, 0⟩
    simp only [subUsize_of_le enough, Option.bind_some, updated]
    exact ⟨_, rfl⟩

theorem Sane.update_returns (sane : state.Sane) (forward : state.Forward ack) :
    ∃ next, (machine .wraps).step state ack = some next := by
  obtain ⟨filter, returned⟩ := sane.rebuilt_returns ack
  have refilled := sane.refills returned
  obtain ⟨result, updated⟩ : ∃ result, state.tracker.update .wraps ack = some result := by
    rw [update_eq, returned]
    simp only [Option.bind_some]
    split
    · split
      · exact ⟨_, rfl⟩
      · exact measure_returns
          { state.tracker with maxAckHeightFilter := filter } sane.threshold refilled.ordered forward _
    · exact ⟨_, rfl⟩
  simp only [machine, updated, Option.bind_eq_bind, Option.bind_some]
  exact ⟨_, rfl⟩

theorem Sane.step (sane : state.Sane) (forward : state.Forward ack)
    (stepped : (machine checks).step state ack = some next) :
    next.Sane ∧ (next.measured ≠ state.measured → next.tracker.maxAckHeightFilter.Recent next.roundTripCount) ∧
      (state.Dated → state.KeepsRounds checks ack → next.Dated) := by
  obtain ⟨⟨tracker, extraAcked⟩, updated, same⟩ := Option.bind_eq_some_iff.mp stepped
  cases same
  rw [update_eq] at updated
  obtain ⟨filter, returned, rest⟩ := Option.bind_eq_some_iff.mp updated
  obtain ⟨ordered, _, copies, dates⟩ := sane.refills returned
  have ends : Ends { state.tracker with maxAckHeightFilter := filter } ack tracker extraAcked := by
    dsimp only at rest
    split at rest
    · rename_i time since
      split at rest
      · cases rest
        exact .started rfl rfl
      · exact measure_ends sane.threshold since rest
    · cases rest
      exact .started rfl rfl
  cases ends with
  | started is nothing =>
    have noneExtra : measurement tracker extraAcked ack = [] := if_pos nothing
    have kept : tracker.maxAckHeightFilter = filter := by rw [is]; rfl
    refine ⟨⟨?_, ?_, ?_, ?_⟩, fun more => ?_, fun dated keeps => ?_⟩
    · rw [is]
      exact sane.threshold
    · rw [is]
      exact sane.reduces
    · rw [kept]
      exact ordered.later forward
    · rw [kept]
      exact copies
    · refine absurd ?_ more
      rw [noneExtra, List.append_nil]
    · intro entry member
      rw [kept] at member
      exact List.mem_append_left _ (dates dated keeps entry member)
  | measured timeDelta someExtra is threshold reduces inserted =>
    obtain ⟨larger, updated, _, nextOrdered, recent, among⟩ := WindowedFilter.update_spec ordered forward
      ⟨extraAcked, tracker.aggregationEpochBytes, timeDelta, 0⟩
    have kept : tracker.maxAckHeightFilter = larger := Option.some.inj (inserted.symm.trans updated)
    refine ⟨⟨?_, ?_, ?_, ?_⟩, fun _ => ?_, fun dated keeps => ?_⟩
    · rw [threshold]
      exact sane.threshold
    · rw [reduces]
      exact sane.reduces
    · rw [kept]
      exact nextOrdered
    · intro entry member
      rw [kept] at member
      rcases among entry member with old | rfl
      · exact copies entry old
      · rfl
    · rw [kept]
      exact recent
    · intro entry member
      rw [kept] at member
      rcases among entry member with old | rfl
      · exact List.mem_append_left _ (dates dated keeps entry old)
      · rw [is]
        exact List.mem_append_right _ (List.mem_singleton.mpr rfl)

/-- While rounds go up, every update returns where products wrap around, the estimates stay in order, and each
measurement leaves the best one within the window. Estimates are stored under the rounds in which they were measured
as long as no rebuilt filter keeps any but those of round zero. -/
theorem ack_height_dated (checks : OverflowChecks) (window : Nat) (overestimateAvoidance : Bool) (acks : List AckHeight)
    (forward : (machine checks).Guarded Forward (start window overestimateAvoidance) acks) :
    (checks = .wraps → ∃ state, (machine checks).run (start window overestimateAvoidance) acks = some state) ∧
      ∀ state, (machine checks).run (start window overestimateAvoidance) acks = some state →
        state.tracker.maxAckHeightFilter.Ordered state.roundTripCount ∧
          (∀ ack next, state.Forward ack → (machine checks).step state ack = some next →
            next.measured ≠ state.measured → next.tracker.maxAckHeightFilter.Recent next.roundTripCount) ∧
          ((machine checks).Guarded (KeepsRounds checks) (start window overestimateAvoidance) acks → state.Dated) := by
  have started := start_sane window overestimateAvoidance
  constructor
  · rintro rfl
    obtain ⟨state, completed, _⟩ := (machine .wraps).run_total_of_guarded (fun state ack (sane : Sane state) forward => by
      obtain ⟨next, stepped⟩ := sane.update_returns forward
      exact ⟨next, stepped, (sane.step forward stepped).1⟩) started forward
    exact ⟨state, completed⟩
  · intro state completed
    have sane : state.Sane := (machine checks).run_keeps_of_guarded
      (fun _ _ _ sane forward stepped => (Sane.step sane forward stepped).1) started forward completed
    refine ⟨sane.ordered, fun ack next forward stepped => (sane.step forward stepped).2.1, fun keeps => ?_⟩
    have preserved (state : Measuring) (ack : AckHeight) (next : Measuring) (held : state.Sane ∧ state.Dated)
        (guards : state.Forward ack ∧ state.KeepsRounds checks ack)
          (stepped : (machine checks).step state ack = some next) :
        next.Sane ∧ next.Dated := by
      obtain ⟨nextSane, _, dates⟩ := held.1.step guards.1 stepped
      exact ⟨nextSane, dates held.2 guards.2⟩
    have initial : (start window overestimateAvoidance).Sane ∧ (start window overestimateAvoidance).Dated :=
      ⟨started, start_dated window overestimateAvoidance⟩
    exact ((machine checks).run_keeps_of_guarded preserved initial (forward.and keeps) completed).2

/-- The first new maximum keeps the event of round zero, and the second one keeps none. -/
def rebuilds : List AckHeight :=
  [⟨⟨0⟩, false, 0, 10, 1, 0, 1000⟩, ⟨⟨0⟩, false, 0, 11, 2, 1000000, 1000⟩, ⟨⟨8000⟩, true, 1, 20, 3, 2000000, 1000⟩,
    ⟨⟨8000⟩, false, 3, 30, 12, 3000000, 1000⟩, ⟨⟨8000⟩, false, 3, 31, 13, 4000000, 4000⟩,
    ⟨⟨80000000000⟩, true, 4, 40, 31, 5000000, 1000⟩, ⟨⟨8000⟩, false, 4, 41, 32, 6000000, 5000⟩]

theorem ack_height_dated_rebuilds : ∃ state, (machine .wraps).run (start 10 false) rebuilds = some state ∧
      state.measured = [⟨2000, 1000000, 0⟩, ⟨3000, 2000000, 1⟩, ⟨5000, 1000000, 3⟩, ⟨6000, 1000000, 4⟩] ∧
      state.Dated :=
  exists_reached_of (·.measured = [⟨2000, 1000000, 0⟩, ⟨3000, 2000000, 1⟩, ⟨5000, 1000000, 3⟩, ⟨6000, 1000000, 4⟩])
    (by decide +kernel) fun state completed measured =>
      ⟨measured, ((ack_height_dated .wraps 10 false rebuilds (by decide +kernel)).2 state completed).2.2
        (by decide +kernel)⟩

/-- Two thousand bytes are acknowledged within a millisecond of the fifth round, with none expected. -/
def burst : List AckHeight := [⟨⟨0⟩, false, 5, 10, 1, 0, 1000⟩, ⟨⟨0⟩, false, 5, 11, 2, 1000000, 1000⟩]

def newMaximum : AckHeight := ⟨⟨8000⟩, true, 6, 20, 11, 2000000, 1000⟩

/-- The event of the fifth round goes back into the filter as one of round zero. -/
theorem rebuilt_under_round_zero : ((machine .wraps).run (start 10 false) (burst ++ [newMaximum])).map (fun state =>
      (state.measured, state.tracker.maxAckHeightFilter.held.map fun entry => (entry.sample.bytesAcked, entry.time))) =
      some ([⟨2000, 1000000, 5⟩], [(2000, 0), (2000, 0), (2000, 0)]) := by
  decide +kernel

end Measuring

end Quiche.Gcongestion
