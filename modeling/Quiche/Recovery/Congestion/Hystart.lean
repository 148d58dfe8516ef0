import Mathlib.Algebra.Group.Nat.Defs
import Quiche.Data.Machine

namespace Quiche

open Data

/-- `Duration::MAX`, in nanoseconds -/
def durationMax : Nat := 2 ^ 64 * 10 ^ 9 - 1

def minRttThresh : Nat := 4 * 10 ^ 6

def maxRttThresh : Nat := 16 * 10 ^ 6

def nRttSample : Nat := 8

def cssRounds : Nat := 5

/-- A `Duration` is its number of nanoseconds. -/
structure Hystart where
  enabled : Bool
  windowEnd : Option Nat
  lastRoundMinRtt : Nat
  currentRoundMinRtt : Nat
  cssBaselineMinRtt : Nat
  rttSampleCount : Nat
  cssStartTime : Option Int
  cssRoundCount : Nat
deriving DecidableEq

namespace Hystart

def new (enabled : Bool) : Hystart := ⟨enabled, none, durationMax, durationMax, durationMax, 0, none, 0⟩

def startRound (hystart : Hystart) (pktNum : Nat) : Hystart :=
  if hystart.windowEnd.isNone then
    { hystart with
      windowEnd := some pktNum
      lastRoundMinRtt := hystart.currentRoundMinRtt
      currentRoundMinRtt := durationMax
      rttSampleCount := 0 }
  else hystart

/-- The first part of `on_packet_acked` -/
def sampled (hystart : Hystart) (rtt : Nat) : Hystart :=
  { hystart with
    currentRoundMinRtt := min hystart.currentRoundMinRtt rtt
    rttSampleCount := hystart.rttSampleCount + 1 }

/-- The part of `on_packet_acked` that enters and leaves conservative slow start -/
def changePhase (hystart : Hystart) (now : Int) : Hystart :=
  if hystart.cssStartTime.isNone then
    if hystart.rttSampleCount ≥ nRttSample ∧ hystart.currentRoundMinRtt ≠ durationMax ∧
        hystart.lastRoundMinRtt ≠ durationMax then
      let rttThresh := max (hystart.lastRoundMinRtt / 8) minRttThresh
      let rttThresh := min rttThresh maxRttThresh
      -- `saturating_add`
      if hystart.currentRoundMinRtt ≥ min (hystart.lastRoundMinRtt + rttThresh) durationMax then
        { hystart with
          cssBaselineMinRtt := hystart.currentRoundMinRtt
          cssStartTime := some now }
      else hystart
    else hystart
  else if hystart.rttSampleCount ≥ nRttSample then
    let hystart := { hystart with rttSampleCount := 0 }
    if hystart.currentRoundMinRtt < hystart.cssBaselineMinRtt then
      -- Back to Slow Start.
      { hystart with
        cssBaselineMinRtt := durationMax
        cssStartTime := none
        cssRoundCount := 0 }
    else hystart
  else hystart

def endsRound (hystart : Hystart) (pktNum : Nat) : Bool := hystart.windowEnd.any (· ≤ pktNum)

/-- The last part of `on_packet_acked` -/
def changeRound (hystart : Hystart) (pktNum : Nat) : Hystart × Bool :=
  if hystart.endsRound pktNum then
    let hystart := { hystart with windowEnd := none }
    if hystart.cssStartTime.isSome then
      let hystart := { hystart with cssRoundCount := hystart.cssRoundCount + 1 }
      -- End of CSS - exit to congestion avoidance.
      if hystart.cssRoundCount ≥ cssRounds then ({ hystart with cssRoundCount := 0 }, true)
      else (hystart, false)
    else (hystart, false)
  else (hystart, false)

def onPacketAcked (hystart : Hystart) (pktNum rtt : Nat) (now : Int) : Hystart × Bool :=
  if hystart.enabled then ((hystart.sampled rtt).changePhase now).changeRound pktNum
  else (hystart, false)

def congestionEvent (hystart : Hystart) : Hystart :=
  { hystart with windowEnd := none, cssStartTime := none }

end Hystart

inductive HystartOp where
  | startRound (pktNum : Nat)
  | onPacketAcked (pktNum rtt : Nat) (now : Int)
  | congestionEvent

/-- HyStart++ beside the number of rounds that have ended since `css_start_time` was last set, counted for as
long as it stays set and no congestion event comes in between. -/
structure Phase where
  hystart : Hystart
  rounds : Option Nat
deriving DecidableEq

namespace Phase

def new (enabled : Bool) : Phase := ⟨.new enabled, none⟩

/-- The rounds after a call that leaves `next`. A call sets `css_start_time` before it ends a round. -/
def count (phase : Phase) (next : Hystart) (ended : Bool) : Option Nat :=
  match next.cssStartTime with
  | none => none
  | some start =>
    if phase.hystart.cssStartTime = some start then phase.rounds.map (· + ended.toNat) else some ended.toNat

def onPacketAcked (phase : Phase) (pktNum rtt : Nat) (now : Int) : Phase where
  hystart := (phase.hystart.onPacketAcked pktNum rtt now).1
  rounds := phase.count (phase.hystart.onPacketAcked pktNum rtt now).1 (phase.hystart.endsRound pktNum)

def apply (phase : Phase) : HystartOp → Phase
  | .startRound pktNum => ⟨phase.hystart.startRound pktNum, phase.rounds⟩
  | .onPacketAcked pktNum rtt now => phase.onPacketAcked pktNum rtt now
  | .congestionEvent => ⟨phase.hystart.congestionEvent, none⟩

def machine : Machine Phase HystartOp where
  step phase op := some (phase.apply op)

/-- Rounds are only counted in conservative slow start, and no more than there were. -/
structure Counted (phase : Phase) : Prop where
  enabled : phase.hystart.enabled = true
  slowStart : phase.hystart.cssStartTime = none → phase.hystart.cssRoundCount = 0
  conservative : ∀ start, phase.hystart.cssStartTime = some start →
    ∃ rounds, phase.rounds = some rounds ∧ phase.hystart.cssRoundCount ≤ rounds

/-- A congestion event finds no rounds counted. -/
def Fresh (phase : Phase) : HystartOp → Prop
  | .congestionEvent => phase.hystart.cssRoundCount = 0
  | _ => True

instance decidableFresh (phase : Phase) : ∀ op, Decidable (phase.Fresh op)
  | .congestionEvent => inferInstanceAs (Decidable (phase.hystart.cssRoundCount = 0))
  | .startRound _ => inferInstanceAs (Decidable True)
  | .onPacketAcked _ _ _ => inferInstanceAs (Decidable True)

end Phase

namespace Hystart

variable {hystart : Hystart} {pktNum rtt : Nat} {now : Int}

theorem changePhase_cases (hystart : Hystart) (now : Int) :
    (hystart.changePhase now).windowEnd = hystart.windowEnd ∧ (hystart.changePhase now).enabled = hystart.enabled ∧
      ((hystart.changePhase now).cssStartTime = hystart.cssStartTime ∧
          (hystart.changePhase now).cssRoundCount = hystart.cssRoundCount ∨
        hystart.cssStartTime = none ∧ (hystart.changePhase now).cssStartTime = some now ∧
          (hystart.changePhase now).cssRoundCount = hystart.cssRoundCount ∨
        (hystart.changePhase now).cssStartTime = none ∧ (hystart.changePhase now).cssRoundCount = 0) := by
  rw [changePhase]
  by_cases slowStart : hystart.cssStartTime.isNone = true
  · rw [if_pos slowStart]
    split
    · dsimp only
      split
      · simp [Option.isNone_iff_eq_none.mp slowStart]
      · simp
    · simp
  · rw [if_neg slowStart]
    split
    · dsimp only
      split
      · simp
      · simp
    · simp

theorem changeRound_cssStartTime (hystart : Hystart) (pktNum : Nat) :
    (hystart.changeRound pktNum).1.cssStartTime = hystart.cssStartTime := by
  rw [changeRound]
  split
  · dsimp only
    split
    · split
      · rfl
      · rfl
    · rfl
  · rfl

theorem changeRound_enabled (hystart : Hystart) (pktNum : Nat) :
    (hystart.changeRound pktNum).1.enabled = hystart.enabled := by
  rw [changeRound]
  split
  · dsimp only
    split
    · split
      · rfl
      · rfl
    · rfl
  · rfl

theorem changeRound_slowStart (pktNum : Nat) (slowStart : hystart.cssStartTime = none) :
    (hystart.changeRound pktNum).1.cssRoundCount = hystart.cssRoundCount ∧ (hystart.changeRound pktNum).2 = false := by
  rw [changeRound]
  split
  · simp [slowStart]
  · simp

theorem changeRound_conservative (hystart : Hystart) (pktNum : Nat) :
    (hystart.changeRound pktNum).1.cssRoundCount ≤ hystart.cssRoundCount + (hystart.endsRound pktNum).toNat ∧
      ((hystart.changeRound pktNum).2 = true →
        cssRounds ≤ hystart.cssRoundCount + (hystart.endsRound pktNum).toNat) := by
  rw [changeRound]
  cases hystart.endsRound pktNum with
  | false => simp
  | true =>
    by_cases conservative : hystart.cssStartTime.isSome = true
    · by_cases last : hystart.cssRoundCount + 1 ≥ cssRounds
      · simp [conservative, last]
      · simp [conservative, last]
    · simp [conservative]

end Hystart

namespace Phase

variable {phase next : Phase} {pktNum rtt : Nat} {now : Int}

theorem onPacketAcked_counted (counted : phase.Counted) (pktNum rtt : Nat) (now : Int) :
    (phase.onPacketAcked pktNum rtt now).Counted ∧ ((phase.hystart.onPacketAcked pktNum rtt now).2 = true →
        ∃ rounds, (phase.onPacketAcked pktNum rtt now).rounds = some rounds ∧ cssRounds ≤ rounds) := by
  have acked : phase.hystart.onPacketAcked pktNum rtt now =
      ((phase.hystart.sampled rtt).changePhase now).changeRound pktNum := if_pos counted.enabled
  obtain ⟨windowEnd, enabled, changed⟩ := Hystart.changePhase_cases (phase.hystart.sampled rtt) now
  rw [onPacketAcked, acked]
  generalize (phase.hystart.sampled rtt).changePhase now = middle at windowEnd enabled changed
  have ends : middle.endsRound pktNum = phase.hystart.endsRound pktNum := by
    rw [Hystart.endsRound, windowEnd]
    rfl
  have still : (middle.changeRound pktNum).1.enabled = true :=
    (Hystart.changeRound_enabled middle pktNum).trans (enabled.trans counted.enabled)
  have start := Hystart.changeRound_cssStartTime middle pktNum
  cases startTime : middle.cssStartTime with
  | none =>
    obtain ⟨count, stays⟩ := Hystart.changeRound_slowStart pktNum startTime
    have absent : middle.cssRoundCount = 0 := by
      rcases changed with ⟨same, kept⟩ | ⟨_, entered, _⟩ | ⟨_, reset⟩
      · exact kept.trans (counted.slowStart (same.symm.trans startTime))
      · cases startTime.symm.trans entered
      · exact reset
    refine ⟨⟨still, fun _ => count.trans absent, fun began conservative => ?_⟩, fun exits => ?_⟩
    · cases (start.trans startTime).symm.trans conservative
    · cases stays.symm.trans exits
  | some began =>
    obtain ⟨bounded, exits⟩ := Hystart.changeRound_conservative middle pktNum
    obtain ⟨rounds, total, enough⟩ : ∃ rounds,
        phase.count (middle.changeRound pktNum).1 (phase.hystart.endsRound pktNum) = some rounds ∧
          middle.cssRoundCount + (middle.endsRound pktNum).toNat ≤ rounds := by
      rw [count, start, startTime, ends]
      rcases changed with ⟨same, kept⟩ | ⟨before, entered, kept⟩ | ⟨left, _⟩
      · have conservative : phase.hystart.cssStartTime = some began := same.symm.trans startTime
        obtain ⟨rounds, total, enough⟩ := counted.conservative began conservative
        have sameCount : middle.cssRoundCount = phase.hystart.cssRoundCount := kept
        exact ⟨rounds + (phase.hystart.endsRound pktNum).toNat,
          by simp only [conservative, if_true, total, Option.map_some], by omega⟩
      · have slowStart : phase.hystart.cssStartTime = none := before
        have absent : middle.cssRoundCount = 0 := kept.trans (counted.slowStart slowStart)
        exact ⟨(phase.hystart.endsRound pktNum).toNat, by simp only [slowStart, reduceCtorEq, if_false], by omega⟩
      · cases startTime.symm.trans left
    refine ⟨⟨still, fun slowStart => ?_, fun _ _ => ⟨rounds, total, Nat.le_trans bounded enough⟩⟩, fun exit => ?_⟩
    · cases (start.trans startTime).symm.trans slowStart
    · exact ⟨rounds, total, Nat.le_trans (exits exit) enough⟩

theorem apply_counted (counted : phase.Counted) {op : HystartOp} (fresh : phase.Fresh op) :
    (phase.apply op).Counted := by
  cases op with
  | startRound pktNum =>
    have same : (phase.hystart.startRound pktNum).enabled = phase.hystart.enabled ∧
        (phase.hystart.startRound pktNum).cssStartTime = phase.hystart.cssStartTime ∧
        (phase.hystart.startRound pktNum).cssRoundCount = phase.hystart.cssRoundCount := by
      rw [Hystart.startRound]
      split
      · simp
      · simp
    obtain ⟨enabled, start, count⟩ := same
    constructor
    · exact enabled.trans counted.enabled
    · intro slowStart
      exact count.trans (counted.slowStart (start.symm.trans slowStart))
    · intro began conservative
      obtain ⟨rounds, total, enough⟩ := counted.conservative began (start.symm.trans conservative)
      exact ⟨rounds, total, Nat.le_trans (Nat.le_of_eq count) enough⟩
  | onPacketAcked pktNum rtt now => exact (onPacketAcked_counted counted pktNum rtt now).1
  | congestionEvent =>
    constructor
    · exact counted.enabled
    · intro _
      exact fresh
    · intro began conservative
      cases conservative

theorem run_counted {ops : List HystartOp} (fresh : machine.Guarded Fresh (new true) ops)
    (completed : machine.run (new true) ops = some phase) : phase.Counted := by
  refine machine.run_keeps_of_guarded ?_ ?_ fresh completed
  · rintro before op after counted admitted stepped
    cases stepped
    exact apply_counted counted admitted
  · constructor
    · rfl
    · intro _
      rfl
    · intro began conservative
      cases conservative

/-- In every run whose congestion events come while no round is counted, slow start is left only after the
full number of rounds of one conservative phase. -/
theorem leaves_after_css_rounds {ops : List HystartOp} (fresh : machine.Guarded Fresh (new true) ops)
    (completed : machine.run (new true) ops = some phase)
    (leaves : (phase.hystart.onPacketAcked pktNum rtt now).2 = true) :
    ∃ rounds, (phase.onPacketAcked pktNum rtt now).rounds = some rounds ∧ cssRounds ≤ rounds :=
  (onPacketAcked_counted (run_counted fresh completed) pktNum rtt now).2 leaves

def slowing (pktNum : Nat) : List HystartOp :=
  [.startRound pktNum] ++ .replicate 8 (.onPacketAcked pktNum (10 * 10 ^ 6) 0) ++
    [.startRound (pktNum + 20)] ++ .replicate 8 (.onPacketAcked (pktNum + 10) (100 * 10 ^ 6) 1)

/-- Four rounds that end with the packets after `pktNum`. -/
def fourRounds (pktNum : Nat) : List HystartOp := (List.range 4).flatMap fun index =>
    [.onPacketAcked (pktNum + index) (100 * 10 ^ 6) 2, .startRound (pktNum + index + 1)]

theorem leaves_after_css_rounds_five : ∃ phase, machine.run (new true) (slowing 0 ++ fourRounds 20) = some phase ∧
      ∃ rounds, (phase.onPacketAcked 24 (100 * 10 ^ 6) 3).rounds = some rounds ∧ cssRounds ≤ rounds := by
  refine ⟨(slowing 0 ++ fourRounds 20).foldl Phase.apply (new true), by decide +kernel, ?_⟩
  have fresh : machine.Guarded Fresh (new true) (slowing 0 ++ fourRounds 20) := by decide +kernel
  exact leaves_after_css_rounds fresh (by decide +kernel) (by decide +kernel)

def interrupted : List HystartOp := slowing 0 ++ fourRounds 20 ++ [.congestionEvent] ++ slowing 100

/-- After four rounds and a congestion event, the first round of the next conservative phase leaves slow start. -/
theorem leaves_after_one_round : ¬ ∀ ops phase pktNum rtt now, machine.run (new true) ops = some phase →
      (phase.hystart.onPacketAcked pktNum rtt now).2 = true →
        ∃ rounds, (phase.onPacketAcked pktNum rtt now).rounds = some rounds ∧ cssRounds ≤ rounds := by
  intro claimed
  obtain ⟨rounds, total, enough⟩ := claimed interrupted (interrupted.foldl Phase.apply (new true))
    120 (100 * 10 ^ 6) 3 (by decide +kernel) (by decide +kernel)
  have one : ((interrupted.foldl Phase.apply (new true)).onPacketAcked 120 (100 * 10 ^ 6) 3).rounds = some 1 := by
    decide +kernel
  cases one.symm.trans total
  exact absurd enough (by decide)

end Phase

end Quiche
