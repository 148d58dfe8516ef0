import Quiche.Recovery.History
import Quiche.Recovery.Timer

namespace Quiche

open Data

/-! After which calls the loss detection timer is set, and what it is set to. -/

namespace LegacyRecovery

open Legacy

def clock (recovery : LegacyRecovery) : Clock where
  lossTime epoch := (recovery.epochs epoch).lossTime
  inFlight epoch := (recovery.epochs epoch).inFlightCount
  lastSent epoch := (recovery.epochs epoch).timeOfLastAckElicitingPacket
  isZero := recovery.bytesInFlight.isZero
  duration := recovery.rttStats.pto * (2 ^ recovery.ptoCount % 2 ^ 32)
  maxAckDelay := recovery.rttStats.maxAckDelay * (2 ^ recovery.ptoCount % 2 ^ 32)

/-- The timer was set by the rules at some time. -/
def Timed (recovery : LegacyRecovery) (handshakeStatus : HandshakeStatus) : Prop :=
  ∃ now old, recovery.lossTimer = recovery.clock.timer handshakeStatus now old

variable {recovery next : LegacyRecovery} {handshakeStatus : HandshakeStatus} {epoch : Epoch} {now : Int}
  {mulF64 : Nat → Rat → Nat}

theorem setLossDetectionTimer_lossTimer (recovery : LegacyRecovery) (handshakeStatus : HandshakeStatus) (now : Int) :
    (recovery.setLossDetectionTimer handshakeStatus now).lossTimer =
      recovery.clock.timer handshakeStatus now recovery.lossTimer := by
  have pto : recovery.ptoTimeAndSpace handshakeStatus now = recovery.clock.ptoTimeAndSpace handshakeStatus now := rfl
  have loss : recovery.lossTimeAndSpace = Quiche.lossTimeAndSpace recovery.clock.lossTime := rfl
  rw [setLossDetectionTimer, Clock.timer, ← pto, loss]
  cases (Quiche.lossTimeAndSpace recovery.clock.lossTime).1 with
  | some time => rfl
  | none =>
    show LegacyRecovery.lossTimer (if (recovery.clock.isZero && handshakeStatus.peerVerifiedAddress) = true then _ else _)
      = _
    dsimp only
    split
    · rfl
    · cases (recovery.ptoTimeAndSpace handshakeStatus now).1 <;> rfl

theorem setLossDetectionTimer_timed (recovery : LegacyRecovery) (handshakeStatus : HandshakeStatus) (now : Int) :
    (recovery.setLossDetectionTimer handshakeStatus now).Timed handshakeStatus := by
  refine ⟨now, recovery.lossTimer, ?_⟩
  rw [setLossDetectionTimer_lossTimer]
  obtain ⟨timer, same⟩ := setLossDetectionTimer_spec recovery handshakeStatus now
  rw [same]
  rfl

theorem clock_setEpoch (recovery : LegacyRecovery) {state : RecoveryEpoch}
    (lossTime : state.lossTime = (recovery.epochs epoch).lossTime)
    (count : state.inFlightCount = (recovery.epochs epoch).inFlightCount)
    (last : state.timeOfLastAckElicitingPacket = (recovery.epochs epoch).timeOfLastAckElicitingPacket) :
    (recovery.setEpoch epoch state).clock = recovery.clock := by
  have each : ∀ other, ((recovery.setEpoch epoch state).epochs other).lossTime = (recovery.epochs other).lossTime ∧
      ((recovery.setEpoch epoch state).epochs other).inFlightCount = (recovery.epochs other).inFlightCount ∧
      ((recovery.setEpoch epoch state).epochs other).timeOfLastAckElicitingPacket =
        (recovery.epochs other).timeOfLastAckElicitingPacket := by
    intro other
    by_cases same : other = epoch
    · subst same
      simp only [setEpoch, Function.update_self, lossTime, count, last, and_self]
    · simp only [setEpoch, Function.update_of_ne same, and_self]
  simp only [clock, each]
  rfl

theorem Timed.setEpoch (timed : recovery.Timed handshakeStatus) {state : RecoveryEpoch}
    (lossTime : state.lossTime = (recovery.epochs epoch).lossTime)
    (count : state.inFlightCount = (recovery.epochs epoch).inFlightCount)
    (last : state.timeOfLastAckElicitingPacket = (recovery.epochs epoch).timeOfLastAckElicitingPacket) :
    (recovery.setEpoch epoch state).Timed handshakeStatus := by
  obtain ⟨now, old, set⟩ := timed
  refine ⟨now, old, ?_⟩
  rw [clock_setEpoch recovery lossTime count last]
  exact set

theorem onPacketSent_timed (recovery : LegacyRecovery) {pkt : Sent} (flying : pkt.inFlight = true) (epoch : Epoch)
    (handshakeStatus : HandshakeStatus) (now : Int) :
    (recovery.onPacketSent pkt epoch handshakeStatus now).Timed handshakeStatus := by
  simp only [onPacketSent, if_pos flying]
  refine Timed.setEpoch ?_ rfl rfl rfl
  exact setLossDetectionTimer_timed _ handshakeStatus now

theorem onAckReceived_timed {ranges : RangeSet} {ackDelay : Nat} {skipPn : Option Nat} {wrap : Nat}
    {result : OnAckReceivedOutcome × List Nat}
    (received : recovery.onAckReceived mulF64 ranges ackDelay epoch handshakeStatus now skipPn wrap =
      some (next, .ok result)) (newly : next.newlyAcked ≠ []) : next.Timed handshakeStatus := by
  rw [onAckReceived] at received
  obtain ⟨⟨state, acked, outcome⟩, detected, received⟩ := Option.bind_eq_some_iff.mp received
  cases outcome with
  | error => cases received
  | ok detection =>
    dsimp only at received
    cases last : acked.getLast? with
    | none =>
      rw [last] at received
      cases received
      refine absurd ?_ newly
      rw [(onSpuriousLosses_spec _ detection).2.2]
      exact List.getLast?_eq_none_iff.mp last
    | some largest =>
      rw [last] at received
      obtain ⟨⟨spotted, loss⟩, _, received⟩ := Option.bind_eq_some_iff.mp received
      cases received
      exact (setLossDetectionTimer_timed _ handshakeStatus now).setEpoch rfl rfl rfl

theorem onLossDetectionTimeout_timed {result : OnLossDetectionTimeoutOutcome × List Nat}
    (expired : recovery.onLossDetectionTimeout mulF64 handshakeStatus now = some (next, result)) :
    next.Timed handshakeStatus := by
  rw [onLossDetectionTimeout] at expired
  dsimp only at expired
  split at expired
  · obtain ⟨⟨spotted, loss⟩, _, expired⟩ := Option.bind_eq_some_iff.mp expired
    cases expired
    exact setLossDetectionTimer_timed spotted handshakeStatus now
  · cases expired
    exact setLossDetectionTimer_timed _ handshakeStatus now

theorem onPktNumSpaceDiscarded_timed (recovery : LegacyRecovery) (epoch : Epoch) (handshakeStatus : HandshakeStatus)
    (now : Int) : (recovery.onPktNumSpaceDiscarded epoch handshakeStatus now).Timed handshakeStatus :=
  setLossDetectionTimer_timed _ handshakeStatus now

end LegacyRecovery

namespace GRecovery

open Gcongestion

def clock (recovery : GRecovery) : Clock where
  lossTime epoch := (recovery.epochs epoch).lossTime
  inFlight epoch := (recovery.epochs epoch).pktsInFlight
  lastSent epoch := (recovery.epochs epoch).timeOfLastAckElicitingPacket
  isZero := recovery.bytesInFlight.isZero
  duration := recovery.rttStats.pto * 2 ^ (recovery.ptoCount % 32)
  maxAckDelay := recovery.rttStats.maxAckDelay * (2 ^ recovery.ptoCount % 2 ^ 32)

def Timed (recovery : GRecovery) (handshakeStatus : HandshakeStatus) : Prop :=
  ∃ now old, recovery.lossTimer = recovery.clock.timer handshakeStatus now old

variable {recovery next : GRecovery} {handshakeStatus : HandshakeStatus} {epoch : Epoch} {now : Int}
  {mulF64 : Nat → Rat → Nat}

theorem setLossDetectionTimer_lossTimer (recovery : GRecovery) (handshakeStatus : HandshakeStatus) (now : Int) :
    (recovery.setLossDetectionTimer handshakeStatus now).lossTimer =
      recovery.clock.timer handshakeStatus now recovery.lossTimer := by
  have pto : recovery.ptoTimeAndSpace handshakeStatus now = recovery.clock.ptoTimeAndSpace handshakeStatus now := rfl
  have loss : recovery.lossTimeAndSpace = Quiche.lossTimeAndSpace recovery.clock.lossTime := rfl
  rw [setLossDetectionTimer, Clock.timer, ← pto, loss]
  cases (Quiche.lossTimeAndSpace recovery.clock.lossTime).1 with
  | some time => rfl
  | none =>
    show GRecovery.lossTimer (if (recovery.clock.isZero && handshakeStatus.peerVerifiedAddress) = true then _ else _)
      = _
    dsimp only
    split
    · rfl
    · cases (recovery.ptoTimeAndSpace handshakeStatus now).1 <;> rfl

theorem setLossDetectionTimer_timed (recovery : GRecovery) (handshakeStatus : HandshakeStatus) (now : Int) :
    (recovery.setLossDetectionTimer handshakeStatus now).Timed handshakeStatus := by
  refine ⟨now, recovery.lossTimer, ?_⟩
  rw [setLossDetectionTimer_lossTimer]
  obtain ⟨timer, same⟩ := setLossDetectionTimer_spec recovery handshakeStatus now
  rw [same]
  rfl

theorem onSpuriousLosses_newlyAcked {result : AckedDetectionResult}
    (judged : recovery.onSpuriousLosses result = some next) : next.newlyAcked = recovery.newlyAcked := by
  rw [onSpuriousLosses] at judged
  cases spurious : result.spuriousPktThresh with
  | none =>
    rw [spurious] at judged
    cases judged
    rfl
  | some thresh =>
    rw [spurious] at judged
    obtain ⟨adapted, _, judged⟩ := Option.bind_eq_some_iff.mp judged
    cases judged
    rfl

theorem onPacketSent_timed {pkt : Sent} (flying : pkt.inFlight = true)
    (sent : recovery.onPacketSent pkt epoch handshakeStatus now = some next) : next.Timed handshakeStatus := by
  by_cases repeats : ((recovery.epochs epoch).sentPackets.getLast?.any fun last => pkt.pktNum ≤ last.pktNum) = true
  · rw [onPacketSent, if_pos repeats] at sent
    cases sent
  · rw [onPacketSent, if_neg repeats] at sent
    simp only [if_pos flying] at sent
    cases sent
    exact setLossDetectionTimer_timed _ handshakeStatus pkt.timeSent

theorem onAckReceived_timed {ranges : RangeSet} {ackDelay : Nat} {skipPn : Option Nat} {wrap : Nat}
    {result : OnAckReceivedOutcome × List Nat}
    (received : recovery.onAckReceived mulF64 ranges ackDelay epoch handshakeStatus now skipPn wrap =
      some (next, .ok result)) (newly : next.newlyAcked ≠ []) : next.Timed handshakeStatus := by
  rw [onAckReceived] at received
  obtain ⟨⟨state, acked, outcome⟩, detected, received⟩ := Option.bind_eq_some_iff.mp received
  cases outcome with
  | error => cases received
  | ok detection =>
    obtain ⟨middle, judged, received⟩ := Option.bind_eq_some_iff.mp received
    cases last : acked.getLast? with
    | none =>
      rw [last] at received
      cases received
      refine absurd ?_ newly
      rw [onSpuriousLosses_newlyAcked judged]
      exact List.getLast?_eq_none_iff.mp last
    | some largest =>
      rw [last] at received
      obtain ⟨⟨spotted, loss⟩, _, received⟩ := Option.bind_eq_some_iff.mp received
      cases received
      exact setLossDetectionTimer_timed _ handshakeStatus now

theorem onLossDetectionTimeout_timed {result : OnLossDetectionTimeoutOutcome × List Nat}
    (expired : recovery.onLossDetectionTimeout mulF64 handshakeStatus now = some (next, result)) :
    next.Timed handshakeStatus := by
  rw [onLossDetectionTimeout] at expired
  dsimp only at expired
  split at expired
  · obtain ⟨⟨spotted, loss⟩, _, expired⟩ := Option.bind_eq_some_iff.mp expired
    cases expired
    exact setLossDetectionTimer_timed _ handshakeStatus now
  · cases expired
    exact setLossDetectionTimer_timed _ handshakeStatus now

theorem onPktNumSpaceDiscarded_timed (recovery : GRecovery) (epoch : Epoch) (handshakeStatus : HandshakeStatus)
    (now : Int) : (recovery.onPktNumSpaceDiscarded epoch handshakeStatus now).Timed handshakeStatus :=
  setLossDetectionTimer_timed _ handshakeStatus now

end GRecovery

namespace Recovery

def lossTime (recovery : Recovery) (epoch : Epoch) : Option Int :=
  match recovery with
  | legacy recovery => (recovery.epochs epoch).lossTime
  | gcongestion recovery => (recovery.epochs epoch).lossTime

def timeOfLastAckElicitingPacket (recovery : Recovery) (epoch : Epoch) : Option Int :=
  match recovery with
  | legacy recovery => (recovery.epochs epoch).timeOfLastAckElicitingPacket
  | gcongestion recovery => (recovery.epochs epoch).timeOfLastAckElicitingPacket

def lossDetectionTimer : Recovery → Option Int
  | legacy recovery => recovery.lossTimer
  | gcongestion recovery => recovery.lossTimer

def ptoCount : Recovery → Nat
  | legacy recovery => recovery.ptoCount
  | gcongestion recovery => recovery.ptoCount

def rttStats : Recovery → RttStats
  | legacy recovery => recovery.rttStats
  | gcongestion recovery => recovery.rttStats

def detectLost (mulF64 : Nat → Rat → Nat) (recovery : Recovery) (epoch : Epoch) (handshakeStatus : HandshakeStatus)
    (now : Int) : Option (Recovery × OnLossDetectionTimeoutOutcome × List Nat) :=
  match recovery with
  | legacy recovery => (recovery.detectLostPackets mulF64 epoch now).map fun (recovery, loss) =>
    (legacy (recovery.setLossDetectionTimer handshakeStatus now), ⟨loss.lostPackets, loss.lostBytes⟩, loss.lostPkts)
  | gcongestion recovery => (recovery.detectAndRemoveLostPackets mulF64 epoch now).map fun (recovery, loss) =>
    let recovery := { recovery with lostCount := recovery.lostCount + loss.lostPackets }
    let recovery := recovery.setLossDetectionTimer handshakeStatus now
    (gcongestion recovery, ⟨loss.lostPackets, loss.lostBytes⟩, recovery.lostPkts loss)

def clock : Recovery → Clock
  | legacy recovery => recovery.clock
  | gcongestion recovery => recovery.clock

def Timed (recovery : Recovery) (handshakeStatus : HandshakeStatus) : Prop :=
  ∃ now old, recovery.lossDetectionTimer = recovery.clock.timer handshakeStatus now old

variable {recovery : Recovery} {mulF64 : Nat → Rat → Nat} {handshakeStatus : HandshakeStatus} {now : Int}

theorem clock_lossTime (recovery : Recovery) : recovery.clock.lossTime = recovery.lossTime := by
  cases recovery <;> rfl

theorem lossTimeAndSpace_eq (recovery : Recovery) :
    recovery.lossTimeAndSpace = Quiche.lossTimeAndSpace recovery.lossTime := by
  cases recovery <;> rfl

section

variable (mulF64 : Nat → Rat → Nat) (recovery : Recovery) (handshakeStatus : HandshakeStatus) (now : Int)

theorem onLossDetectionTimeout_detects (found : recovery.lossTimeAndSpace.1.isSome = true) :
    recovery.onLossDetectionTimeout mulF64 handshakeStatus now =
      recovery.detectLost mulF64 recovery.lossTimeAndSpace.2 handshakeStatus now := by
  cases recovery with
  | legacy recovery =>
    simp only [lossTimeAndSpace] at found
    simp only [onLossDetectionTimeout, LegacyRecovery.onLossDetectionTimeout, if_pos found, detectLost,
      lossTimeAndSpace]
    cases recovery.detectLostPackets mulF64 recovery.lossTimeAndSpace.2 now <;> rfl
  | gcongestion recovery =>
    simp only [lossTimeAndSpace] at found
    simp only [onLossDetectionTimeout, GRecovery.onLossDetectionTimeout, if_pos found, detectLost, lossTimeAndSpace]
    cases recovery.detectAndRemoveLostPackets mulF64 recovery.lossTimeAndSpace.2 now <;> rfl

theorem onLossDetectionTimeout_ptoCount (nothing : ¬ recovery.lossTimeAndSpace.1.isSome = true) :
    ∃ next result, recovery.onLossDetectionTimeout mulF64 handshakeStatus now = some (next, result) ∧
      next.ptoCount = recovery.ptoCount + 1 := by
  cases recovery with
  | legacy recovery =>
    simp only [lossTimeAndSpace] at nothing
    obtain ⟨timer, timed⟩ := LegacyRecovery.setLossDetectionTimer_spec
      (recovery.onProbeTimeout (recovery.probeSpace handshakeStatus now)) handshakeStatus now
    simp only [onLossDetectionTimeout, LegacyRecovery.onLossDetectionTimeout, if_neg nothing, timed]
    exact ⟨_, _, rfl, rfl⟩
  | gcongestion recovery =>
    simp only [lossTimeAndSpace] at nothing
    obtain ⟨timer, timed⟩ := GRecovery.setLossDetectionTimer_spec
      (recovery.onProbeTimeout (recovery.probeSpace handshakeStatus now)) handshakeStatus now
    simp only [onLossDetectionTimeout, GRecovery.onLossDetectionTimeout, if_neg nothing, timed]
    exact ⟨_, _, rfl, rfl⟩

end

theorem detectLost_ptoCount {epoch : Epoch} {next : Recovery} {result : OnLossDetectionTimeoutOutcome × List Nat}
    (detected : recovery.detectLost mulF64 epoch handshakeStatus now = some (next, result)) :
    next.ptoCount = recovery.ptoCount := by
  cases recovery with
  | legacy recovery =>
    obtain ⟨⟨spotted, loss⟩, found, same⟩ := Option.map_eq_some_iff.mp detected
    obtain ⟨⟨state, _⟩, _, found⟩ := Option.bind_eq_some_iff.mp found
    cases found
    cases same
    obtain ⟨timer, timed⟩ := LegacyRecovery.setLossDetectionTimer_spec _ handshakeStatus now
    rw [ptoCount, timed]
    rfl
  | gcongestion recovery =>
    obtain ⟨⟨spotted, loss⟩, found, same⟩ := Option.map_eq_some_iff.mp detected
    obtain ⟨⟨state, _⟩, _, found⟩ := Option.bind_eq_some_iff.mp found
    cases found
    cases same
    obtain ⟨timer, timed⟩ := GRecovery.setLossDetectionTimer_spec _ handshakeStatus now
    rw [ptoCount, timed]
    rfl

/-- The timer is the earliest loss time, and detects the losses of its space when it fires. -/
def Watches (mulF64 : Nat → Rat → Nat) (recovery : Recovery) : Prop :=
  ∃ time, recovery.lossDetectionTimer = some time ∧ (∃ space, recovery.lossTime space = some time) ∧
    (∀ other known, recovery.lossTime other = some known → time ≤ known) ∧
    ∀ handshakeStatus now, time ≤ now → ∃ space, recovery.lossTime space = some time ∧
      recovery.onLossDetectionTimeout mulF64 handshakeStatus now = recovery.detectLost mulF64 space handshakeStatus now

theorem watches_iff (timed : recovery.Timed handshakeStatus) :
    recovery.Watches mulF64 ↔ Unmasked recovery.lossTime := by
  obtain ⟨at_, old, set⟩ := timed
  rw [Clock.timer, clock_lossTime] at set
  constructor
  · rintro ⟨time, timer, _, least, detects⟩
    obtain ⟨space, is, detected⟩ := detects handshakeStatus time le_rfl
    by_cases found : recovery.lossTimeAndSpace.1.isSome = true
    · obtain ⟨known, which⟩ := Option.isSome_iff_exists.mp found
      rw [lossTimeAndSpace_eq] at which
      rw [which, timer] at set
      cases set
      exact unmasked_of_lossTimeAndSpace (Prod.ext which rfl) least
    · obtain ⟨next, result, probed, more⟩ := onLossDetectionTimeout_ptoCount mulF64 recovery handshakeStatus time found
      have same := detectLost_ptoCount (detected.symm.trans probed)
      omega
  · intro unmasked
    obtain ⟨space, time, found, is, least⟩ := lossTimeAndSpace_of_unmasked unmasked
    rw [found] at set
    refine ⟨time, set, ⟨space, is⟩, least, fun handshakeStatus now _ => ⟨space, is, ?_⟩⟩
    rw [← lossTimeAndSpace_eq] at found
    rw [onLossDetectionTimeout_detects mulF64 recovery handshakeStatus now (by rw [found]; rfl), found]

/-- A packet that elicits an acknowledgement is in flight in the space. -/
def Elicits (recovery : Recovery) (epoch : Epoch) : Prop :=
  ∃ sent ∈ recovery.unresolved epoch, sent.inFlight = true ∧ sent.ackEliciting = true

instance (recovery : Recovery) (epoch : Epoch) : Decidable (recovery.Elicits epoch) :=
  inferInstanceAs (Decidable (∃ sent ∈ recovery.unresolved epoch, _))

def backedOffPto (recovery : Recovery) (epoch : Epoch) : Nat :=
  (recovery.rttStats.pto + if epoch = .application then recovery.rttStats.maxAckDelay else 0) * 2 ^ recovery.ptoCount

/-- The timer is the earliest probe timeout of the spaces that are eligible. -/
def Probing (recovery : Recovery) (completed : Bool) : Prop := ∃ time : Int, recovery.lossDetectionTimer = some time ∧
    (∃ epoch ∈ Clock.eligible completed, recovery.Elicits epoch ∧
      ∃ last, recovery.timeOfLastAckElicitingPacket epoch = some last ∧ time = last + recovery.backedOffPto epoch) ∧
    ∀ epoch ∈ Clock.eligible completed, recovery.Elicits epoch →
      ∀ last, recovery.timeOfLastAckElicitingPacket epoch = some last → time ≤ last + recovery.backedOffPto epoch

variable {books : Epoch → Book}

theorem clock_inFlight (recovery : Recovery) (epoch : Epoch) :
    recovery.clock.inFlight epoch = recovery.inFlightCount epoch := by
  cases recovery <;> rfl

theorem clock_lastSent (recovery : Recovery) (epoch : Epoch) :
    recovery.clock.lastSent epoch = recovery.timeOfLastAckElicitingPacket epoch := by
  cases recovery <;> rfl

theorem clock_isZero (recovery : Recovery) : recovery.clock.isZero = recovery.bytesInFlight.isZero := by
  cases recovery <;> rfl

theorem clock_backedOff (fits : recovery.ptoCount < 32) (epoch : Epoch) :
    recovery.clock.backedOff epoch = recovery.backedOffPto epoch := by
  have power : 2 ^ recovery.ptoCount % 2 ^ 32 = 2 ^ recovery.ptoCount :=
    Nat.mod_eq_of_lt (Nat.pow_lt_pow_right (by decide) fits)
  have shift : recovery.ptoCount % 32 = recovery.ptoCount := Nat.mod_eq_of_lt fits
  rw [backedOffPto, Clock.backedOff]
  cases recovery with
  | legacy recovery =>
    simp only [ptoCount] at power
    simp only [clock, LegacyRecovery.clock, power, rttStats, ptoCount]
    split <;> ring
  | gcongestion recovery =>
    simp only [ptoCount] at power shift
    simp only [clock, GRecovery.clock, power, shift, rttStats, ptoCount]
    split <;> ring

section

variable (follows : recovery.view.Follows books 0)

include follows

theorem elicits_iff (epoch : Epoch) :
    recovery.Elicits epoch ↔ (books epoch).Elicits := by
  rw [Elicits, unresolved_eq follows]
  rfl

theorem last_of_elicits {epoch : Epoch} (elicits : recovery.Elicits epoch) :
    (recovery.timeOfLastAckElicitingPacket epoch).isSome = true := by
  have asked := (elicits_iff follows epoch).mp elicits
  cases recovery with
  | legacy recovery => exact (follows.tracks epoch).last asked
  | gcongestion recovery => exact (follows.tracks epoch).last asked

theorem inFlightCount_of_elicits {epoch : Epoch}
    (elicits : recovery.Elicits epoch) : recovery.inFlightCount epoch ≠ 0 := by
  rw [inFlightCount_eq follows]
  exact ((elicits_iff follows epoch).mp elicits).count_ne_zero

theorem probing_of_timed (timed : recovery.Timed handshakeStatus)
    (nothing : ∀ epoch, recovery.lossTime epoch = none) (flying : 0 < recovery.bytesInFlight.bytesInFlight)
    (asks : ∃ epoch ∈ Clock.eligible handshakeStatus.completed, recovery.Elicits epoch)
    (acksOnly : ∀ epoch ∈ Clock.eligible handshakeStatus.completed, recovery.inFlightCount epoch ≠ 0 →
      recovery.Elicits epoch) (fits : recovery.ptoCount < 32) : recovery.Probing handshakeStatus.completed := by
  obtain ⟨at_, old, set⟩ := timed
  obtain ⟨epoch, listed, elicits⟩ := asks
  have busy : recovery.clock.isZero = false := by
    rw [clock_isZero]
    exact beq_false_of_ne (Nat.ne_of_gt flying)
  have empty : ∀ epoch, recovery.clock.lossTime epoch = none := by
    rw [clock_lossTime]
    exact nothing
  have counted : recovery.clock.inFlight epoch ≠ 0 := by
    rw [clock_inFlight]
    exact inFlightCount_of_elicits follows elicits
  obtain ⟨time, space, timer, earliest⟩ := Clock.timer_pto empty busy ⟨epoch, listed, counted⟩
    fun other member many => by
      rw [clock_inFlight] at many
      rw [clock_lastSent]
      exact last_of_elicits follows (acksOnly other member many)
  refine ⟨time, set.trans timer, ?_, fun other member elicits last known => ?_⟩
  · obtain ⟨member, many, same⟩ := Clock.mem_candidates.mp earliest.mem
    rw [clock_inFlight] at many
    obtain ⟨last, known, is⟩ := Option.map_eq_some_iff.mp (congrArg Prod.fst same).symm
    rw [clock_lastSent] at known
    rw [clock_backedOff fits] at is
    exact ⟨space, member, acksOnly space member many, last, known, is.symm⟩
  · have many : recovery.clock.inFlight other ≠ 0 := by
      rw [clock_inFlight]
      exact inFlightCount_of_elicits follows elicits
    have candidate : recovery.clock.candidate other ∈
        recovery.clock.candidates (Clock.eligible handshakeStatus.completed) :=
      Clock.mem_candidates.mpr ⟨member, many, rfl⟩
    refine earliest.least _ candidate _ ?_
    rw [Clock.candidate, clock_lastSent, known, clock_backedOff fits]
    rfl

end

namespace History

variable {history next : History} {op : Op}

def arms (op : Op) (next : History) : Option HandshakeStatus :=
  match op with
  | .packetSent pkt _ handshakeStatus _ => if pkt.inFlight then some handshakeStatus else none
  | .ackReceived _ _ _ handshakeStatus _ _ _ =>
    if next.recovery.newlyAcked.isEmpty then none else some handshakeStatus
  | .lossDetectionTimeout handshakeStatus _ => some handshakeStatus
  | .pktNumSpaceDiscarded _ handshakeStatus _ => some handshakeStatus
  | _ => none

theorem step_timed (stepped : history.step mulF64 op = some next) (armed : arms op next = some handshakeStatus) :
    next.recovery.Timed handshakeStatus := by
  cases op with
  | packetSent pkt epoch status now =>
    obtain ⟨recovery, sent, stepped⟩ := Option.bind_eq_some_iff.mp stepped
    cases stepped
    rw [arms] at armed
    split at armed
    · rename_i flying
      cases armed
      cases before : history.recovery with
      | legacy legacy =>
        rw [before] at sent
        cases sent
        exact LegacyRecovery.onPacketSent_timed legacy flying epoch handshakeStatus now
      | gcongestion gcongestion =>
        rw [before] at sent
        obtain ⟨after, taken, same⟩ := Option.map_eq_some_iff.mp sent
        cases same
        exact GRecovery.onPacketSent_timed flying taken
    · cases armed
  | ackReceived ranges ackDelay epoch status now skipPn wrap =>
    obtain ⟨⟨recovery, result⟩, received, stepped⟩ := Option.bind_eq_some_iff.mp stepped
    cases result with
    | error => cases stepped
    | ok outcome =>
      cases stepped
      rw [arms] at armed
      split at armed
      · cases armed
      · rename_i newly
        cases armed
        cases before : history.recovery with
        | legacy legacy =>
          rw [before] at received
          obtain ⟨⟨after, result⟩, received, same⟩ := Option.map_eq_some_iff.mp received
          cases same
          refine LegacyRecovery.onAckReceived_timed received fun nothing => newly ?_
          show (List.map _ after.newlyAcked).isEmpty = true
          rw [nothing]
          rfl
        | gcongestion gcongestion =>
          rw [before] at received
          obtain ⟨⟨after, result⟩, received, same⟩ := Option.map_eq_some_iff.mp received
          cases same
          refine GRecovery.onAckReceived_timed received fun nothing => newly ?_
          show (List.map _ after.newlyAcked).isEmpty = true
          rw [nothing]
          rfl
  | lossDetectionTimeout status now =>
    obtain ⟨⟨recovery, result⟩, expired, finished⟩ := Option.bind_eq_some_iff.mp stepped
    cases armed
    have timed : recovery.Timed handshakeStatus := by
      cases before : history.recovery with
      | legacy legacy =>
        rw [before] at expired
        obtain ⟨⟨after, result⟩, expired, same⟩ := Option.map_eq_some_iff.mp expired
        cases same
        exact LegacyRecovery.onLossDetectionTimeout_timed expired
      | gcongestion gcongestion =>
        rw [before] at expired
        obtain ⟨⟨after, result⟩, expired, same⟩ := Option.map_eq_some_iff.mp expired
        cases same
        exact GRecovery.onLossDetectionTimeout_timed expired
    dsimp only at finished
    split at finished
    · cases finished
      exact timed
    · cases finished
      exact timed
  | pathChange => cases armed
  | pktNumSpaceDiscarded epoch status now =>
    cases stepped
    cases armed
    show (history.recovery.onPktNumSpaceDiscarded epoch handshakeStatus now).Timed handshakeStatus
    cases history.recovery with
    | legacy legacy => exact LegacyRecovery.onPktNumSpaceDiscarded_timed legacy epoch handshakeStatus now
    | gcongestion gcongestion => exact GRecovery.onPktNumSpaceDiscarded_timed gcongestion epoch handshakeStatus now
  | getAckedFrames => cases armed
  | getLostFrames => cases armed
  | pingSent => cases armed

/-- After a call that sets it, the timer watches the earliest loss time exactly when a space
that takes it is followed by none without a loss time. Without a loss time it watches the PTO,
if every eligible space with packets in flight has one that asks for an acknowledgement. -/
theorem loss_timer_watches (mulF64 : Nat → Rat → Nat) (gcongestionEnabled : Bool) (initialRtt maxAckDelay : Nat)
    (enableRelaxedLossThreshold : Bool) (now : Int) {ops : List Op} (guarded : (machine mulF64).Guarded Admits
      (start (newWithConfig gcongestionEnabled initialRtt maxAckDelay enableRelaxedLossThreshold now)) ops)
    (returned : (machine mulF64).run
      (start (newWithConfig gcongestionEnabled initialRtt maxAckDelay enableRelaxedLossThreshold now)) ops =
        some history)
    (admits : history.Admits op) (stepped : history.step mulF64 op = some next)
    (armed : arms op next = some handshakeStatus) :
    ((∃ epoch, (next.recovery.lossTime epoch).isSome = true) →
      (next.recovery.Watches mulF64 ↔ Unmasked next.recovery.lossTime)) ∧
    ((∀ epoch, next.recovery.lossTime epoch = none) → 0 < next.recovery.bytesInFlight.bytesInFlight →
      (∃ epoch ∈ Clock.eligible handshakeStatus.completed, next.recovery.Elicits epoch) → next.recovery.ptoCount < 32 →
      (∀ epoch ∈ Clock.eligible handshakeStatus.completed, next.recovery.inFlightCount epoch ≠ 0 →
        next.recovery.Elicits epoch) → next.recovery.Probing handshakeStatus.completed) := by
  have timed := step_timed stepped armed
  obtain ⟨final, completed, accounted⟩ := run_accounted
    (newWithConfig_follows gcongestionEnabled initialRtt maxAckDelay enableRelaxedLossThreshold now) guarded
  cases returned.symm.trans completed
  obtain ⟨after, taken, kept⟩ := step_accounted accounted admits
  cases stepped.symm.trans taken
  refine ⟨fun _ => watches_iff timed, fun nothing flying asks fits acksOnly => ?_⟩
  exact probing_of_timed kept.follows timed nothing flying asks acksOnly fits

def mulExact (duration : Nat) (factor : Rat) : Nat := (duration * factor).floor.toNat

def handshaking : HandshakeStatus := ⟨true, false, false⟩

def pingAt (pktNum : Nat) (epoch : Epoch) (now : Int) : Op :=
  .packetSent ⟨pktNum, [.ping none], now, none, none, 1200, true, true, true, false⟩ epoch handshaking now

def twoPings (epoch : Epoch) : List Op := [pingAt 0 epoch 9000000, pingAt 1 epoch 10000000]

def secondAcked (epoch : Epoch) : Op := .ackReceived (.inline ⟨[(1, 2)], 4⟩) 0 epoch handshaking 20000000 none 0

/-- The Application space, behind which there is none, has a loss time; without one the timer probes the Handshake
space. -/
theorem loss_timer_watches_application :
    (∃ history next, (machine mulExact).run (start (newWithConfig false 333000000 0 false 0)) (twoPings .application) =
        some history ∧ history.step mulExact (secondAcked .application) = some next ∧
      next.recovery.lossTime .application = some 20250000 ∧ next.recovery.Watches mulExact) ∧
    ∃ history next, (machine mulExact).run (start (newWithConfig true 333000000 0 false 0)) (twoPings .initial) =
        some history ∧ history.step mulExact (pingAt 2 .handshake 20000000) = some next ∧
      next.recovery.Probing handshaking.completed := by
  constructor
  · refine exists_reached_next_of (·.step mulExact (secondAcked .application))
      (fun history next => history.Admits (secondAcked .application) ∧ arms (secondAcked .application) next =
        some handshaking ∧ next.recovery.lossTime .application = some 20250000 ∧ Unmasked next.recovery.lossTime)
      (by decide +kernel) fun _ next returned stepped ⟨admits, armed, application, unmasked⟩ => ⟨stepped, application, ?_⟩
    obtain ⟨watches, _⟩ := loss_timer_watches mulExact false 333000000 0 false 0 (by decide +kernel) returned
      admits stepped armed
    exact (watches ⟨.application, by rw [application]; rfl⟩).mpr unmasked
  · refine exists_reached_next_of (·.step mulExact (pingAt 2 .handshake 20000000))
      (fun history next => history.Admits (pingAt 2 .handshake 20000000) ∧
        (∀ epoch, next.recovery.lossTime epoch = none) ∧ 0 < next.recovery.bytesInFlight.bytesInFlight ∧
        (∃ epoch ∈ Clock.eligible handshaking.completed, next.recovery.Elicits epoch) ∧ next.recovery.ptoCount < 32 ∧
        ∀ epoch ∈ Clock.eligible handshaking.completed, next.recovery.inFlightCount epoch ≠ 0 →
          next.recovery.Elicits epoch) (by decide +kernel)
      fun _ next returned stepped ⟨admits, untimed, flying, asks, fits, acksOnly⟩ => ⟨stepped, ?_⟩
    obtain ⟨_, probing⟩ := loss_timer_watches mulExact true 333000000 0 false 0 (by decide +kernel) returned
      admits stepped (rfl : arms (pingAt 2 .handshake 20000000) next = some handshaking)
    exact probing untimed flying asks fits acksOnly

def initialFlight : List Op :=
  let status : HandshakeStatus := ⟨false, false, false⟩
  let sent (pktNum : Nat) (at_ : Int) : Sent := ⟨pktNum, [.ping none], at_, none, none, 1200, true, true, true, false⟩
  [.packetSent (sent 0 9000000) .initial status 9000000, .packetSent (sent 1 10000000) .initial status 10000000]

def initialAck : Op := .ackReceived (.inline ⟨[(1, 2)], 4⟩) 0 .initial ⟨false, false, false⟩ 20000000 none 0

/-- The loss time of the Initial space is masked by the Handshake space, which has none: the
timer sleeps past it. -/
theorem initial_loss_time_masked :
    (machine mulExact).Guarded Admits (start (newWithConfig false 333000000 0 false 0)) initialFlight ∧
    ∃ history next, (machine mulExact).run (start (newWithConfig false 333000000 0 false 0)) initialFlight =
        some history ∧ history.Admits initialAck ∧ history.step mulExact initialAck = some next ∧
      arms initialAck next = some ⟨false, false, false⟩ ∧ next.recovery.lossTime .initial = some 20250000 ∧
      ¬ next.recovery.Watches mulExact := by
  refine ⟨by decide +kernel, exists_reached_next_of (·.step mulExact initialAck)
    (fun history next => history.Admits initialAck ∧ arms initialAck next = some ⟨false, false, false⟩ ∧
      next.recovery.lossTime .initial = some 20250000 ∧ next.recovery.lossDetectionTimer = some 40000000)
    (by decide +kernel)
    fun history next returned stepped ⟨admits, armed, lossTime, timer⟩ => ⟨admits, stepped, armed, lossTime, ?_⟩⟩
  rintro ⟨time, watched, _, least, _⟩
  have late := least .initial 20250000 lossTime
  rw [timer] at watched
  cases watched
  omega

end History

end Recovery

end Quiche
