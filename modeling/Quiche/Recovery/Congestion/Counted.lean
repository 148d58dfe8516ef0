import Quiche.Recovery.Congestion
import Quiche.Recovery.History

namespace Quiche.Controlled

open Data Legacy Recovery

variable {mulF64 : Nat → Rat → Nat} {controlled next : Controlled} {history : History}

theorem onAckReceived_recovery {ranges : RangeSet} {ackDelay : Nat} {epoch : Epoch} {handshakeStatus : HandshakeStatus}
    {now : Int} {skipPn : Option Nat} {wrap : Nat} {choices : Nat → AckChoice} {choice : LossChoice}
    {result : Except Error (OnAckReceivedOutcome × List Nat)}
    (received : controlled.onAckReceived mulF64 ranges ackDelay epoch handshakeStatus now skipPn wrap choices choice =
      some (next, result)) :
    controlled.recovery.onAckReceived mulF64 ranges ackDelay epoch handshakeStatus now skipPn wrap =
      some (next.recovery, result) := by
  obtain ⟨⟨before, detected⟩, prelude, received⟩ := Option.bind_eq_some_iff.mp received
  obtain ⟨⟨state, newlyAcked, outcome⟩, swept, prelude⟩ := Option.bind_eq_some_iff.mp prelude
  rw [LegacyRecovery.onAckReceived]
  refine Option.bind_eq_some_iff.mpr ⟨_, swept, ?_⟩
  cases outcome with
  | error error =>
    cases prelude
    cases received
    rfl
  | ok result =>
    dsimp only at prelude ⊢
    cases largest : newlyAcked.getLast? with
    | none =>
      rw [largest] at prelude
      cases prelude
      cases received
      rfl
    | some largestNewlyAcked =>
      rw [largest] at prelude
      obtain ⟨⟨middle, loss⟩, lost, prelude⟩ := Option.bind_eq_some_iff.mp prelude
      obtain ⟨⟨recovery, _⟩, found, lost⟩ := Option.bind_eq_some_iff.mp lost
      cases lost
      cases prelude
      obtain ⟨congestion, _, received⟩ := Option.bind_eq_some_iff.mp received
      cases received
      exact Option.bind_eq_some_iff.mpr ⟨_, found, rfl⟩

/-- An operation as loss recovery sees it, with the packets as pacing dates them. -/
def Op.plain : Op → Option Recovery.Op
  | packetSent pkt epoch handshakeStatus now packetSendTime =>
    some (.packetSent { pkt with timeSent := packetSendTime } epoch handshakeStatus now)
  | ackReceived ranges ackDelay epoch handshakeStatus now skipPn wrap _ _ =>
    some (.ackReceived ranges ackDelay epoch handshakeStatus now skipPn wrap)
  | lossDetectionTimeout handshakeStatus now _ => some (.lossDetectionTimeout handshakeStatus now)
  | pathChange epoch now _ => some (.pathChange epoch now)
  | pktNumSpaceDiscarded epoch handshakeStatus now => some (.pktNumSpaceDiscarded epoch handshakeStatus now)
  | pingSent epoch => some (.pingSent epoch)
  | updateAppLimited _ | pmtudUpdateMaxDatagramSize _ | updateMaxDatagramSize _ => none

theorem onLossDetectionTimeout_recovery {handshakeStatus : HandshakeStatus} {now : Int} {choice : LossChoice}
    (expired : controlled.onLossDetectionTimeout mulF64 handshakeStatus now choice = some next) :
    ∃ result, controlled.recovery.onLossDetectionTimeout mulF64 handshakeStatus now = some (next.recovery, result) := by
  rw [LegacyRecovery.onLossDetectionTimeout]
  rw [onLossDetectionTimeout] at expired
  dsimp only at expired ⊢
  split at expired
  · rename_i pends
    obtain ⟨⟨after, loss⟩, detected, expired⟩ := Option.bind_eq_some_iff.mp expired
    obtain ⟨⟨recovery, _⟩, found, detected⟩ := Option.bind_eq_some_iff.mp detected
    cases detected
    cases expired
    rw [if_pos pends, found]
    exact ⟨_, rfl⟩
  · rename_i probes
    cases expired
    rw [if_neg probes]
    exact ⟨_, rfl⟩

theorem step_unseen {op : Op} (unseen : op.plain = none) (stepped : controlled.step mulF64 op = some next) :
    next.recovery = controlled.recovery := by
  cases op with
  | updateAppLimited | pmtudUpdateMaxDatagramSize | updateMaxDatagramSize =>
    cases stepped
    rfl
  | _ => cases unseen

theorem step_recovery {op : Op} {plain : Recovery.Op} {after : History}
    (same : history.recovery = .legacy controlled.recovery) (seen : op.plain = some plain)
    (stepped : controlled.step mulF64 op = some next) (followed : history.step mulF64 plain = some after) :
    after.recovery = .legacy next.recovery := by
  cases op with
  | ackReceived ranges ackDelay epoch handshakeStatus now skipPn wrap choices choice =>
    cases seen
    obtain ⟨⟨final, result⟩, received, rfl⟩ := Option.map_eq_some_iff.mp stepped
    rw [History.step, same, Recovery.onAckReceived, onAckReceived_recovery received] at followed
    cases result with
    | error error => cases followed
    | ok result =>
      cases followed
      rfl
  | lossDetectionTimeout handshakeStatus now choice =>
    cases seen
    obtain ⟨result, expired⟩ := onLossDetectionTimeout_recovery stepped
    rw [History.step, same, Recovery.onLossDetectionTimeout, expired, Option.map_some, Option.bind_eq_bind,
      Option.bind_some] at followed
    dsimp only at followed
    split at followed <;> cases followed <;> rfl
  | pathChange epoch now choice =>
    cases seen
    obtain ⟨⟨final, loss⟩, detected, rfl⟩ := Option.map_eq_some_iff.mp stepped
    obtain ⟨⟨recovery, _⟩, found, detected⟩ := Option.bind_eq_some_iff.mp detected
    cases detected
    rw [History.step, same, Recovery.onPathChange, LegacyRecovery.onPathChange, found] at followed
    cases followed
    rfl
  | packetSent | pktNumSpaceDiscarded | pingSent =>
    cases seen
    cases stepped
    rw [History.step, same] at followed
    cases followed
    rfl
  | _ => cases seen

/-- The history is one of the recovery that congestion control works on. -/
structure Simulates (history : History) (controlled : Controlled) : Prop where
  recovery : history.recovery = .legacy controlled.recovery
  accounted : history.Accounted

theorem run_simulates {ops : List Op} {final : Controlled} (simulates : Simulates history controlled)
    (admitted : (History.machine mulF64).Guarded History.Admits history (ops.filterMap Op.plain))
    (completed : (machine mulF64).run controlled ops = some final) :
    ∃ last, (History.machine mulF64).run history (ops.filterMap Op.plain) = some last ∧ Simulates last final := by
  induction ops generalizing controlled history with
  | nil =>
    cases completed
    exact ⟨history, rfl, simulates⟩
  | cons op ops ih =>
    obtain ⟨next, stepped, completed⟩ := Option.bind_eq_some_iff.mp completed
    obtain ⟨same, accounted⟩ := simulates
    cases seen : op.plain with
    | none =>
      rw [List.filterMap_cons_none seen] at admitted ⊢
      exact ih ⟨same.trans (congrArg _ (step_unseen seen stepped).symm), accounted⟩ admitted completed
    | some plain =>
      rw [List.filterMap_cons_some seen] at admitted ⊢
      obtain ⟨admits, rest⟩ := admitted
      obtain ⟨after, followed, kept⟩ : ∃ after, history.step mulF64 plain = some after ∧ after.Accounted :=
        History.step_accounted accounted admits
      obtain ⟨last, reached, simulates⟩ := ih ⟨step_recovery same seen stepped followed, kept⟩ (rest after followed)
        completed
      exact ⟨last, Option.bind_eq_some_iff.mpr ⟨after, followed, reached⟩, simulates⟩

section Runs

variable {algorithm : CcAlgorithm} {size packets initialRtt maxAckDelay : Nat} {start : Int}

/-- Congestion control decides on the exact number of bytes in flight: loss recovery goes the way it goes alone on the
packets as pacing dates them, and what is left of the window is the window less the unresolved packets. -/
theorem window_left_exact {ops : List Op} {final : Controlled}
    (admitted : (History.machine mulF64).Guarded History.Admits
      (History.start (newWithConfig false initialRtt maxAckDelay false start)) (ops.filterMap Op.plain))
    (completed : (machine mulF64).run (new algorithm size packets initialRtt maxAckDelay start) ops = some final) :
    ∃ history, (History.machine mulF64).run
        (History.start (newWithConfig false initialRtt maxAckDelay false start)) (ops.filterMap Op.plain) =
          some history ∧ history.recovery = .legacy final.recovery ∧ final.bytesInFlight = Book.total history.books ∧
      (final.probes = false →
        final.cwndAvailable = final.cwnd - Book.total history.books + final.congestion.prr.sndCnt) := by
  obtain ⟨history, reached, same, accounted⟩ := run_simulates
    ⟨rfl, History.start_accounted (newWithConfig_follows false initialRtt maxAckDelay false start)⟩ admitted completed
  have bytes : final.bytesInFlight = Book.total history.books := by
    have counted := accounted.follows.bytes.counted
    rw [← bytesInFlight_eq, same] at counted
    exact counted
  refine ⟨history, reached, same, bytes, fun quiet => ?_⟩
  rw [cwndAvailable, if_neg (by simp [quiet]), bytes]

def exchange : List Op :=
  let status : HandshakeStatus := ⟨true, true, true⟩
  let sent (pktNum : Nat) : Op := .packetSent ⟨pktNum, [.ping none], 0, none, none, 1200, true, true, true, false⟩
    .application status (10000000 * pktNum) (10000000 * pktNum + 5000000)
  [sent 0, sent 1, sent 2, sent 3, sent 4, .updateAppLimited false,
    .ackReceived (.inline ⟨[(4, 5)], 4⟩) 0 .application status 100000000 none 0 (fun _ => ⟨false, false, 0⟩) ⟨8400, 0⟩,
    .lossDetectionTimeout status 200000000 ⟨8400, 0⟩, sent 5]

theorem window_left_exact_exchange :
    ∃ final history, (machine fun duration _ => duration).run (new .cubic 1200 10 333000000 25000000 0) exchange =
        some final ∧ (History.machine fun duration _ => duration).run
        (History.start (newWithConfig false 333000000 25000000 false 0)) (exchange.filterMap Op.plain) = some history ∧
      history.recovery = .legacy final.recovery ∧ final.bytesInFlight = Book.total history.books := by
  obtain ⟨final, completed, _⟩ : ∃ final ∈
      (machine fun duration _ => duration).run (new .cubic 1200 10 333000000 25000000 0) exchange, True := by
    decide +kernel
  obtain ⟨history, reached, same, bytes, _⟩ := window_left_exact (by decide +kernel) completed
  exact ⟨final, history, completed, reached, same, bytes⟩

end Runs

end Quiche.Controlled
