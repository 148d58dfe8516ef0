import Quiche.Minmax
import Quiche.Recovery

namespace Quiche

def rttWindow : Nat := 300 * 1000000000

structure RttStats where
  latestRtt : Nat
  maxRtt : Nat
  smoothedRtt : Nat
  rttvar : Nat
  minRtt : Running.Minmax Nat
  maxAckDelay : Nat
  hasFirstRttSample : Bool

namespace RttStats

def new (initialRtt maxAckDelay : Nat) (now : Int) : RttStats where
  latestRtt := 0
  maxRtt := initialRtt
  smoothedRtt := initialRtt
  rttvar := initialRtt / 2
  minRtt := .new initialRtt now
  maxAckDelay := maxAckDelay
  hasFirstRttSample := false

def updateRtt (rtt : RttStats) (latestRtt ackDelay : Nat) (now : Int) (handshakeConfirmed : Bool) : RttStats :=
  if !rtt.hasFirstRttSample then
    { rtt with
      latestRtt
      minRtt := (Running.Minmax.reset now latestRtt).1
      smoothedRtt := latestRtt
      maxRtt := latestRtt
      rttvar := latestRtt / 2
      hasFirstRttSample := true }
  else
    let minRtt := (rtt.minRtt.runningMin (· / 4) (· / 2) rttWindow now latestRtt).1
    let ackDelay := if handshakeConfirmed then min ackDelay rtt.maxAckDelay else ackDelay
    -- Adjust for the acknowledgment delay if plausible.
    let adjustedRtt := if latestRtt ≥ minRtt.best.value + ackDelay then latestRtt - ackDelay else latestRtt
    { rtt with
      latestRtt
      minRtt
      maxRtt := max rtt.maxRtt latestRtt
      rttvar := rtt.rttvar * 3 / 4 + ((rtt.smoothedRtt : Int) - adjustedRtt).natAbs / 4
      smoothedRtt := rtt.smoothedRtt * 7 / 8 + adjustedRtt / 8 }

/-- `loss_delay`. The product of a duration and a floating-point number is a parameter. -/
def lossDelay (mulF64 : Nat → Rat → Nat) (rtt : RttStats) (timeThresh : Rat) : Nat :=
  max (mulF64 (max rtt.latestRtt rtt.smoothedRtt) timeThresh) granularity

/-- `pto` -/
def pto (rtt : RttStats) : Nat := rtt.smoothedRtt + max (rtt.rttvar * 4) granularity

end RttStats

/-- The arguments of a call of `update_rtt` -/
structure RttSample where
  latestRtt : Nat
  ackDelay : Nat
  now : Int
  handshakeConfirmed : Bool

namespace RttSample

def update (rtt : RttStats) (sample : RttSample) : RttStats :=
  rtt.updateRtt sample.latestRtt sample.ackDelay sample.now sample.handshakeConfirmed

def measurement (sample : RttSample) : Running.Measurement Nat := ⟨rttWindow, sample.now, sample.latestRtt⟩

variable {rtt : RttStats} {samples : List RttSample} {last : RttSample}

/-- What the statistics say after the `samples` and the `last` one. -/
structure Took (samples : List RttSample) (last : RttSample) (rtt : RttStats) : Prop where
  sampled : rtt.hasFirstRttSample = true
  latest : rtt.latestRtt = last.latestRtt
  reached : ∃ sample ∈ samples ++ [last], sample.latestRtt = rtt.maxRtt
  highest : ∀ sample ∈ samples ++ [last], sample.latestRtt ≤ rtt.maxRtt
  tracks : Running.Tracks ((samples ++ [last]).map fun sample => sample.measurement.sample).reverse rtt.minRtt
  recent : (last.now - rtt.minRtt.best.time).toNat ≤ rttWindow

theorem took_first (opened : rtt.hasFirstRttSample = false) (first : RttSample) : Took [] first (first.update rtt) := by
  have updated : (first.update rtt).hasFirstRttSample = true ∧ (first.update rtt).latestRtt = first.latestRtt ∧
      (first.update rtt).maxRtt = first.latestRtt ∧
      (first.update rtt).minRtt = (Running.Minmax.reset first.now first.latestRtt).1 := by
    simp only [update, RttStats.updateRtt, opened, Bool.not_false, if_true]
    exact ⟨trivial, trivial, trivial, trivial⟩
  obtain ⟨sampled, latest, most, least⟩ := updated
  refine ⟨sampled, latest, ⟨first, List.mem_singleton_self first, most.symm⟩, ?_, ?_, ?_⟩
  · intro sample member
    rw [List.mem_singleton.mp member, most]
  · rw [least]
    exact Running.tracks_reset _ _
  · simp [least, Running.Minmax.reset]

theorem Took.update (took : Took samples last rtt) (sample : RttSample) :
    Took (samples ++ [last]) sample (sample.update rtt) := by
  have updated : (sample.update rtt).hasFirstRttSample = true ∧ (sample.update rtt).latestRtt = sample.latestRtt ∧
      (sample.update rtt).maxRtt = max rtt.maxRtt sample.latestRtt ∧ (sample.update rtt).minRtt =
        (rtt.minRtt.runningMin (· / 4) (· / 2) rttWindow sample.now sample.latestRtt).1 := by
    simp only [RttSample.update, RttStats.updateRtt, took.sampled, Bool.not_true, Bool.false_eq_true, if_false]
    exact ⟨trivial, trivial, trivial, trivial⟩
  obtain ⟨sampled, latest, most, least⟩ := updated
  obtain ⟨tracks, age, _⟩ :=
    Running.Minmax.runningMin_tracks (· / 4) (· / 2) took.tracks rttWindow sample.now sample.latestRtt
  refine ⟨sampled, latest, ?_, ?_, ?_, ?_⟩
  · rw [most]
    rcases le_total rtt.maxRtt sample.latestRtt with above | below
    · exact ⟨sample, by simp, (max_eq_right above).symm⟩
    · obtain ⟨earlier, member, eq⟩ := took.reached
      exact ⟨earlier, List.mem_append_left _ member, eq.trans (max_eq_left below).symm⟩
  · intro other member
    rw [most]
    rcases List.mem_append.mp member with earlier | newest
    · exact (took.highest other earlier).trans (le_max_left _ _)
    · rw [List.mem_singleton.mp newest]
      exact le_max_right _ _
  · rw [least, List.map_append, List.reverse_append]
    exact tracks
  · rw [least]
    exact age

theorem took_samples (opened : rtt.hasFirstRttSample = false) (samples : List RttSample) (last : RttSample) :
    Took samples last ((samples ++ [last]).foldl RttSample.update rtt) := by
  induction samples using List.reverseRecOn generalizing last with
  | nil => exact took_first opened last
  | append_singleton samples before ih =>
    rw [List.foldl_append]
    exact (ih before).update last

/-- After any updates, one or more, `max_rtt` is the largest sample. `min_rtt` is one of the samples, no larger than
those that came after it, and at most five minutes older than the last one. -/
theorem rtt_extremes_sampled (initialRtt maxAckDelay : Nat) (started : Int) (samples : List RttSample)
    (last : RttSample) : let rtt := (samples ++ [last]).foldl update (.new initialRtt maxAckDelay started)
    rtt.latestRtt = last.latestRtt ∧ (∃ sample ∈ samples ++ [last], sample.latestRtt = rtt.maxRtt) ∧
      (∀ sample ∈ samples ++ [last], sample.latestRtt ≤ rtt.maxRtt) ∧
      Running.Standing (· ≤ ·) ((samples ++ [last]).map fun sample => sample.measurement.sample) rtt.minRtt.best ∧
      rtt.minRtt.best.value ≤ last.latestRtt ∧ (last.now - rtt.minRtt.best.time).toNat ≤ rttWindow := by
  have took : Took samples last ((samples ++ [last]).foldl update (.new initialRtt maxAckDelay started)) :=
    took_samples rfl samples last
  obtain ⟨index, _, _, _, _, best, _, _⟩ := took.tracks
  have standing := best.standing
  rw [List.reverse_reverse] at standing
  have newest : (((samples ++ [last]).map fun sample => sample.measurement.sample).reverse).head? =
      some last.measurement.sample := by simp
  obtain ⟨earlier, split⟩ := List.head?_eq_some_iff.mp newest
  rw [split] at best
  exact ⟨took.latest, took.reached, took.highest, standing, best.value_le (Running.Least.head _ _) (Nat.zero_le index),
    took.recent⟩

end RttSample

end Quiche
