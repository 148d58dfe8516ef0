import Quiche.Ranges.Remove
import Quiche.Recovery

namespace Quiche

open Data

def maxAckRanges : Nat := 68

def Frame.ackEliciting : Frame → Bool
  | .padding _ | .ack .. | .applicationClose .. | .connectionClose .. => false
  | _ => true

structure PktNumSpace where
  recvPktNeedAck : RangeSet
  recvPktNum : PktNumWindow
  ackElicited : Bool
deriving DecidableEq

namespace PktNumSpace

def new : PktNumSpace := ⟨.new maxAckRanges, .default, false⟩

/-- The end of `recv_single`, once all frames of the packet were processed. -/
def record (pn : Nat) (ackElicited : Bool) (space : PktNumSpace) : Option PktNumSpace := do
  return {
    recvPktNum := space.recvPktNum.insert pn
    recvPktNeedAck := ← space.recvPktNeedAck.pushItem pn
    ackElicited := space.ackElicited || ackElicited }

def stopAcknowledging (ranges : RangeSet) (space : PktNumSpace) : Option PktNumSpace :=
  match ranges.last with
  | none => some space
  | some largestAcked => do
    return { space with recvPktNeedAck := ← space.recvPktNeedAck.removeUntil largestAcked }

def stopAcknowledgingAll : List RangeSet → PktNumSpace → Option PktNumSpace
  | [], space => some space
  | ranges :: rest, space => (space.stopAcknowledging ranges).bind (stopAcknowledgingAll rest)

/-- Numbers below `2 ^ 62`, in as many ranges as are kept. -/
structure WellFormed (space : PktNumSpace) : Prop where
  capped : space.recvPktNeedAck.Capped maxAckRanges
  bounded : space.recvPktNum.lower < 2 ^ 62

variable {space : PktNumSpace} {pn value : Nat}

theorem new_wellFormed : new.WellFormed where
  capped := RangeSet.new_capped maxAckRanges
  bounded := by decide

/-- The number is recorded as seen and to be acknowledged. -/
structure Recorded (space next : PktNumSpace) (pn : Nat) (ackElicited : Bool) : Prop where
  wellFormed : next.WellFormed
  elicited : next.ackElicited = (space.ackElicited || ackElicited)
  seen : ∀ number, space.recvPktNum.contains number = true ∨ number = pn → next.recvPktNum.contains number = true
  acknowledged : ∀ value, Covered next.recvPktNeedAck.iter value → value = pn ∨ Covered space.recvPktNeedAck.iter value
  kept : space.recvPktNeedAck.len < maxAckRanges →
    ∀ value, value = pn ∨ Covered space.recvPktNeedAck.iter value → Covered next.recvPktNeedAck.iter value

theorem WellFormed.record (wellFormed : space.WellFormed) (small : pn < 2 ^ 62) (ackElicited : Bool) :
    ∃ next, space.record pn ackElicited = some next ∧ Recorded space next pn ackElicited := by
  obtain ⟨needAck, pushed, capped, acknowledged, kept⟩ := wellFormed.capped.pushItem (by decide) small
  refine ⟨⟨needAck, space.recvPktNum.insert pn, space.ackElicited || ackElicited⟩, ?_,
    ⟨⟨capped, PktNumWindow.insert_lower wellFormed.bounded small⟩, rfl, fun number either => ?_, acknowledged, kept⟩⟩
  · rw [PktNumSpace.record, pushed]
    rfl
  · exact PktNumWindow.contains_insert wellFormed.bounded small either

/-- The value is above all that was acknowledged. -/
def Above (acked : List RangeSet) (value : Nat) : Prop :=
  ∀ ranges ∈ acked, ∀ number, Covered ranges.iter number → number < value

/-- Of the ranges to acknowledge, only what an acknowledged ACK frame told is gone. -/
structure Pruned (space next : PktNumSpace) (acked : List RangeSet) : Prop where
  wellFormed : next.WellFormed
  window : next.recvPktNum = space.recvPktNum
  elicited : next.ackElicited = space.ackElicited
  length : next.recvPktNeedAck.len ≤ space.recvPktNeedAck.len
  acknowledged : ∀ value, Covered next.recvPktNeedAck.iter value → Covered space.recvPktNeedAck.iter value
  kept : ∀ value, Covered space.recvPktNeedAck.iter value → Above acked value → Covered next.recvPktNeedAck.iter value

theorem Pruned.refl (wellFormed : space.WellFormed) : Pruned space space [] :=
  ⟨wellFormed, rfl, rfl, Nat.le_refl _, fun _ covered => covered, fun _ covered _ => covered⟩

theorem Pruned.trans {middle next : PktNumSpace} {first : RangeSet} {others : List RangeSet}
    (earlier : Pruned space middle [first]) (later : Pruned middle next others) :
    Pruned space next (first :: others) where
  wellFormed := later.wellFormed
  window := later.window.trans earlier.window
  elicited := later.elicited.trans earlier.elicited
  length := Nat.le_trans later.length earlier.length
  acknowledged := fun value covered => earlier.acknowledged value (later.acknowledged value covered)
  kept := by
    intro value covered above
    obtain ⟨aboveFirst, aboveOthers⟩ := List.forall_mem_cons.mp above
    exact later.kept value (earlier.kept value covered (List.forall_mem_singleton.mpr aboveFirst)) aboveOthers

theorem WellFormed.stopAcknowledging (wellFormed : space.WellFormed) {ranges : RangeSet} {limit : Nat}
    (sent : ranges.Capped limit) : ∃ next, space.stopAcknowledging ranges = some next ∧ Pruned space next [ranges] := by
  cases found : ranges.last with
  | none =>
    refine ⟨space, by rw [PktNumSpace.stopAcknowledging, found], ?_⟩
    exact ⟨wellFormed, rfl, rfl, Nat.le_refl _, fun _ covered => covered, fun _ covered _ => covered⟩
  | some largestAcked =>
    have held : Covered ranges.iter largestAcked := RangeSet.covered_last found sent.occupied
    obtain ⟨range, member, reaches, below⟩ := held
    have small : largestAcked < 2 ^ 62 := Nat.lt_of_lt_of_le below (sent.within range member)
    obtain ⟨needAck, removed, capped, fewer, left⟩ := wellFormed.capped.removeUntil small
    refine ⟨{ space with recvPktNeedAck := needAck }, ?_, ⟨⟨capped, wellFormed.bounded⟩, rfl, rfl, fewer, ?_, ?_⟩⟩
    · rw [PktNumSpace.stopAcknowledging, found]
      simp only [removed, Option.bind_eq_bind, Option.bind_some, Option.pure_def]
    · exact fun value covered => ((left value).mp covered).2
    · intro value covered above
      refine (left value).mpr ⟨?_, covered⟩
      have larger := above ranges List.mem_cons_self largestAcked ⟨range, member, reaches, below⟩
      exact Nat.not_le.mpr larger

theorem WellFormed.stopAcknowledgingAll (wellFormed : space.WellFormed) {acked : List RangeSet} {limit : Nat}
    (sent : ∀ ranges ∈ acked, ranges.Capped limit) :
    ∃ next, space.stopAcknowledgingAll acked = some next ∧ Pruned space next acked := by
  induction acked generalizing space with
  | nil => exact ⟨space, rfl, .refl wellFormed⟩
  | cons ranges rest ih =>
    obtain ⟨first, others⟩ := List.forall_mem_cons.mp sent
    obtain ⟨middle, stopped, earlier⟩ := wellFormed.stopAcknowledging first
    obtain ⟨next, looped, later⟩ := ih earlier.wellFormed others
    exact ⟨next, by rw [PktNumSpace.stopAcknowledgingAll, stopped, Option.bind_some, looped], earlier.trans later⟩

end PktNumSpace

end Quiche
