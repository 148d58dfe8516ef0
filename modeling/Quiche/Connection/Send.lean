import Quiche.Connection.Accounting
import Quiche.Stream.SendBuf.Offsets

namespace Quiche.Connection

open Data

variable {conn next : Connection} {call : Call} {id : Nat} {old new : Stream}

/-- The change leaves the stream placed and its end where it was. -/
structure SameEnd (old new : Stream) : Prop where
  placed : old.send.Placed → new.send.Placed
  off : new.send.offBack = old.send.offBack

theorem Resends.kept {send after : SendBuf} (resends : Resends call send after) : SendBuf.Kept send after := by
  cases resends with
  | same => exact ⟨id, rfl, rfl⟩
  | limited => exact ⟨fun placed => ⟨placed.ordered, placed.within, placed.emitOff_le⟩, rfl, rfl⟩
  | acked _ acked => exact SendBuf.ackAndDrop_kept acked
  | lost retransmitted => exact SendBuf.retransmit_kept retransmitted
  | sent _ emitted => exact SendBuf.emit_kept emitted

theorem step_sameEnd (stepped : conn.step call = some next) (other : call.spends = false) :
    Steady SameEnd conn next call ∧ SameBudget conn next := by
  obtain ⟨steady, framed⟩ := step_alters stepped
  refine ⟨steady.mono fun _ _ altered => ?_, framed.budget other⟩
  have kept := (altered.send (idles_of_spends other)).kept
  exact ⟨kept.placed, kept.off⟩

section Capacity

/-- The scaled window is within what is left of the limit of the peer. -/
def FitsLimit (factor : Rat) (cwinAvailable left : Nat) : Prop :=
  factor = 1 ∨ left = 0 ∨ (cwinAvailable : Rat) * factor ≤ left

instance (factor : Rat) (cwinAvailable left : Nat) : Decidable (FitsLimit factor cwinAvailable left) :=
  inferInstanceAs (Decidable (_ ∨ _ ∨ _))

theorem FitsLimit.scaled_le {factor : Rat} {cwinAvailable left : Nat} (fits : FitsLimit factor cwinAvailable left)
    (nonneg : 0 ≤ factor) : ((min cwinAvailable left : Nat) * factor).ceil.toNat ≤ left := by
  rw [Int.toNat_le, Rat.ceil_le_iff, Rat.intCast_natCast]
  rcases fits with plain | exhausted | fits
  · rw [plain, Rat.mul_one, Rat.natCast_le_natCast]
    exact Nat.min_le_right _ _
  · rw [exhausted, Nat.min_zero]
    simp
  · have smaller : ((min cwinAvailable left : Nat) : Rat) ≤ cwinAvailable :=
      Rat.natCast_le_natCast.mpr (Nat.min_le_left _ _)
    exact Rat.le_trans (Rat.mul_le_mul_of_nonneg_right smaller nonneg) fits

def givenUp (conn : Connection) (streamId : Nat) : Option Nat :=
  if isLocal streamId conn.isServer || isBidi streamId then
    match conn.streams.get streamId with
    | some stream => if stream.send.isShutdown then none else some stream.send.unsent
    | none => none
  else none

/-- Whenever the capacity is computed, it stays within the limit of the peer, and the
limit is never set below what was sent. -/
def Affordable (conn : Connection) : Call → Prop
  | .updateTxCap cwinAvailable => FitsLimit conn.txCapFactor cwinAvailable (conn.maxTxData - conn.txData)
  | .streamShutdown streamId .write _ cwinAvailable =>
    ∀ unsent ∈ givenUp conn streamId,
      FitsLimit conn.txCapFactor cwinAvailable (conn.maxTxData - (conn.txData - unsent))
  | .peerTransportParams peerParams cwinAvailable => conn.txData ≤ peerParams.initialMaxData ∧
      FitsLimit conn.txCapFactor cwinAvailable (peerParams.initialMaxData - conn.txData)
  | _ => True

instance (conn : Connection) (call : Call) : Decidable (conn.Affordable call) := by
  rcases call with ⟨⟩
  case updateTxCap => exact inferInstanceAs (Decidable (FitsLimit ..))
  case streamShutdown direction _ _ =>
    rcases direction with ⟨⟩
    · exact .isTrue trivial
    · exact inferInstanceAs (Decidable (∀ _ ∈ _, _))
  case peerTransportParams => exact inferInstanceAs (Decidable (_ ∧ _))
  all_goals exact .isTrue trivial

/-- What was sent, and what may still be taken, stay within the limit of the peer. -/
structure Funded (conn : Connection) : Prop where
  capped : conn.txData + conn.txCap ≤ conn.maxTxData
  factor : 0 ≤ conn.txCapFactor

end Capacity

section Spend

/-- Every stream of the connection is placed on its sending side. -/
def AllPlaced (conn : Connection) : Prop := conn.Every fun _ stream => stream.send.Placed

theorem placed_fresh (isServer : Bool) : HoldsFresh isServer fun _ stream => stream.send.Placed :=
  fun _ _ maxTxData _ => SendBuf.new_placed maxTxData

theorem Origin.placed (origin : conn.Origin id old) (placed : conn.AllPlaced) : old.send.Placed :=
  origin.every placed (placed_fresh conn.isServer)

/-- One stream changes, and the connection is charged by as much as its end moves. -/
structure Charges (conn next : Connection) (id : Nat) (old new : Stream) : Prop where
  touched : conn.Touched next id old new
  placed : new.send.Placed
  moved : old.send.offBack ≤ conn.txData → next.txData + old.send.offBack = conn.txData + new.send.offBack

/-- A call charges the connection for one stream at most, and within its budget when the call is affordable. -/
structure Spends (conn next : Connection) (call : Call) : Prop where
  streams : next.streams.streams = conn.streams.streams ∧ next.txData = conn.txData ∨
    ∃ id old new, Charges conn next id old new
  funded : conn.Funded → conn.Affordable call → next.Funded

theorem spends_same (conn : Connection) (call : Call) : Spends conn conn call :=
  ⟨.inl ⟨rfl, rfl⟩, fun funded _ => funded⟩

variable {fin : Bool} {send written : SendBuf}

theorem Wrote.spends {Result : Type} {len : Nat}
    {writeFn : SendBuf → Nat → Bool → Option (SendBuf × Except Error (Nat × Result))} (placed : conn.AllPlaced)
    (extends_ : ∀ {send cap fin written result}, writeFn send cap fin = some (written, result) →
      SendBuf.Extended send cap (result.map (·.1)) written)
    (wrote : conn.Wrote next id len fin writeFn) : Spends conn next call := by
  cases wrote with
  | refused frame =>
    rw [frame]
    exact ⟨.inl ⟨rfl, rfl⟩, fun funded _ => ⟨funded.capped, funded.factor⟩⟩
  | waiting old touched _ frame =>
    have charges : Charges conn next id old old := ⟨touched, touched.origin.placed placed, by rw [frame]; simp⟩
    refine ⟨.inr ⟨id, old, old, charges⟩, fun funded _ => ?_⟩
    rw [frame]
    exact ⟨funded.capped, funded.factor⟩
  | failed old send error called touched _ frame =>
    have same : send = old.send := (extends_ called).failed error rfl
    have charges : Charges conn next id old { old with send } := by
      subst same
      exact ⟨touched, touched.origin.placed placed, by rw [frame]; simp⟩
    refine ⟨.inr ⟨id, old, _, charges⟩, fun funded _ => ?_⟩
    rw [frame]
    exact ⟨funded.capped, funded.factor⟩
  | wrote old send sent result blockedAt called touched _ fits frame =>
    have extended := extends_ called
    have grown := extended.placed (touched.origin.placed placed)
    have off : send.off = old.send.off + sent := extended.off
    have charges : Charges conn next id old { old with send := send.updateBlockedAt blockedAt } := by
      refine ⟨touched, ⟨grown.ordered, grown.within, grown.emitOff_le⟩, fun _ => ?_⟩
      rw [frame]
      dsimp only [SendBuf.offBack, SendBuf.updateBlockedAt]
      omega
    refine ⟨.inr ⟨id, old, _, charges⟩, fun funded _ => ?_⟩
    have capped := funded.capped
    rw [frame]
    refine ⟨?_, funded.factor⟩
    dsimp only
    omega

theorem write_extends {buf : List UInt8} {cap : Nat} {result : Except Error (Nat × Nat)} (called : (do
      let (send, written) ← send.write (buf.take cap) fin
      return (send, written.map fun sent => (sent, sent))) = some (written, result)) :
    SendBuf.Extended send cap (result.map (·.1)) written := by
  obtain ⟨⟨extended, count⟩, writing, same⟩ := Option.bind_eq_some_iff.mp called
  cases same
  have wrote := SendBuf.write_extends writing
  have short : (buf.take cap).length ≤ cap := by simp
  cases count with
  | error error => exact ⟨wrote.placed, wrote.off, Nat.zero_le _, wrote.error, fun _ _ => wrote.failed error rfl⟩
  | ok count =>
    exact ⟨wrote.placed, wrote.off, Nat.le_trans wrote.le short, wrote.error, fun _ failed => by cases failed⟩

theorem append_extends {buf : List UInt8} {len cap : Nat} {result : Except Error (Nat × Nat × Option (List UInt8))}
    (called : (do
      let (send, written) ← send.appendBuf buf (min len cap) fin
      return (send, written.map fun (sent, remaining) => (sent, (sent, remaining)))) = some (written, result)) :
    SendBuf.Extended send cap (result.map (·.1)) written := by
  obtain ⟨⟨extended, count⟩, writing, same⟩ := Option.bind_eq_some_iff.mp called
  cases same
  have wrote := SendBuf.appendBuf_extends writing
  have short : min (min len cap) buf.length ≤ cap := by omega
  cases count with
  | error error => exact ⟨wrote.placed, wrote.off, Nat.zero_le _, wrote.error, fun _ _ => wrote.failed error rfl⟩
  | ok count =>
    exact ⟨wrote.placed, wrote.off, Nat.le_trans wrote.le short, wrote.error, fun _ failed => by cases failed⟩

theorem charges_of_cut {unsent : Nat} (touched : conn.Touched next id old { old with send })
    (cut : SendBuf.Cut old.send send ∧ unsent = old.send.unsent) (txData : next.txData = conn.txData - unsent) :
    Charges conn next id old { old with send } := by
  obtain ⟨cut, rfl⟩ := cut
  refine ⟨touched, cut.placed, fun bound => ?_⟩
  have off := cut.off
  dsimp only [SendBuf.offBack] at bound ⊢
  omega

theorem step_spends (placed : conn.AllPlaced) (stepped : conn.step call = some next)
    (spending : call.spends = true) : Spends conn next call := by
  cases call with
  | stopSending streamId errorCode =>
    rcases processStopSending_spec (processed_spec stepped) with
      ⟨_, rfl⟩ | ⟨old, send, result, touched, stopped, txData, _, frame⟩
    · exact spends_same _ _
    · have charges : Charges conn next streamId old { old with send } := by
        have before := touched.origin.placed placed
        cases result with
        | error error =>
          have same := stop_error stopped
          subst same
          refine ⟨touched, before, fun _ => ?_⟩
          rw [txData]
          rfl
        | ok sizes => exact charges_of_cut touched (before.stop stopped) txData
      refine ⟨.inr ⟨streamId, old, _, charges⟩, fun funded _ => ?_⟩
      have capped := funded.capped
      rw [frame]
      refine ⟨?_, funded.factor⟩
      dsimp only
      omega
  | maxData limit =>
    cases stepped
    refine ⟨.inl ⟨rfl, rfl⟩, fun funded _ => ⟨?_, funded.factor⟩⟩
    exact Nat.le_trans funded.capped (Nat.le_max_left _ _)
  | peerTransportParams peerParams cwinAvailable =>
    obtain ⟨updated, computed, finished⟩ := Option.bind_eq_some_iff.mp (processed_spec stepped)
    obtain ⟨within, frame⟩ := updateTxCap_spec computed
    subst frame
    dsimp only at finished within
    split at finished
    · cases finished
    · cases finished
      refine ⟨.inl ⟨rfl, rfl⟩, fun funded affordable => ⟨?_, funded.factor⟩⟩
      have small := affordable.2.scaled_le funded.factor
      dsimp only
      omega
  | streamSend streamId buf fin =>
    obtain ⟨result, sent⟩ := called_spec stepped
    exact (streamDoSend_spec sent).spends placed write_extends
  | streamSendZc streamId buf len fin =>
    obtain ⟨result, sent⟩ := called_spec stepped
    exact (streamDoSend_spec sent).spends placed append_extends
  | streamShutdown streamId direction err cwinAvailable =>
    cases direction with
    | read => contradiction
    | write =>
      obtain ⟨result, shut⟩ := called_spec stepped
      rcases streamShutdown_write_spec shut with
        ⟨rfl, _⟩ | ⟨old, send, finalSize, unsent, found, maySend, done, put, _, within, frame⟩
      · exact spends_same _ _
      · obtain ⟨cut, given, running⟩ := (placed streamId old found).shutdown done
        have charges : Charges conn next streamId old { old with send } :=
          charges_of_cut ⟨.live found, put⟩ ⟨cut, given⟩ (by rw [frame])
        refine ⟨.inr ⟨streamId, old, _, charges⟩, fun funded affordable => ?_⟩
        have takes : givenUp conn streamId = some unsent := by
          rw [givenUp, if_pos maySend, found]
          dsimp only
          rw [running, given]
          rfl
        have small := (affordable unsent takes).scaled_le funded.factor
        rw [frame]
        refine ⟨?_, funded.factor⟩
        dsimp only
        omega
  | updateTxCap cwinAvailable =>
    obtain ⟨within, frame⟩ := updateTxCap_spec stepped
    rw [frame]
    refine ⟨.inl ⟨rfl, rfl⟩, fun funded affordable => ⟨?_, funded.factor⟩⟩
    have small := FitsLimit.scaled_le affordable funded.factor
    dsimp only
    omega
  | _ => contradiction

theorem AllPlaced.step (placed : conn.AllPlaced) (stepped : conn.step call = some next) : next.AllPlaced := by
  cases spending : call.spends with
  | false =>
    obtain ⟨steady, _⟩ := step_sameEnd stepped spending
    exact steady.every placed (placed_fresh conn.isServer) fun _ _ _ before same => same.placed before
  | true =>
    rcases (step_spends placed stepped spending).streams with ⟨streams, _⟩ | ⟨id, old, new, charges⟩
    · exact Every.idle placed streams
    · exact Every.put placed charges.touched.put charges.placed

end Spend

namespace History

variable {history next : History}

/-- The connection is charged for what its streams took. -/
structure Paid (history : History) : Prop where
  placed : history.conn.AllPlaced
  funded : history.conn.Funded
  exact : history.conn.txData = history.everOpened (·.send.offBack)

theorem offBack_idle : Idle (·.send.offBack) := fun _ _ _ _ _ _ => rfl

theorem Paid.offBack_le (paid : history.Paid) (origin : history.conn.Origin id old) :
    old.send.offBack ≤ history.conn.txData := by
  rw [paid.exact]
  cases origin with
  | live found =>
    have bound : old.send.offBack ≤ total (·.send.offBack) history.conn.streams.streams := by
      apply le_total found
    exact Nat.le_trans bound (Nat.le_add_right _ _)
  | created _ _ fresh =>
    obtain ⟨maxRxData, maxTxData, window, rfl, _⟩ := fresh
    exact Nat.zero_le _

theorem Paid.step (paid : history.Paid) (affordable : history.conn.Affordable call)
    (stepped : machine.step history call = some next) : next.Paid := by
  obtain ⟨moved, closed⟩ := machine_step stepped
  have placed := paid.placed.step moved
  cases spending : call.spends with
  | false =>
    obtain ⟨steady, same⟩ := step_sameEnd moved spending
    have total := steady.total offBack_idle fun old new end_ => end_.off
    refine ⟨placed, ⟨?_, ?_⟩, ?_⟩
    · rw [same.txData, same.txCap, same.maxTxData]
      exact paid.funded.capped
    · rw [same.txCapFactor]
      exact paid.funded.factor
    · rw [same.txData, paid.exact, everOpened, everOpened, closed, List.map_append, List.sum_append]
      omega
  | true =>
    have spends := step_spends paid.placed moved spending
    refine ⟨placed, spends.funded paid.funded affordable, ?_⟩
    rcases spends.streams with ⟨streams, txData⟩ | ⟨id, old, new, charges⟩
    · rw [txData, paid.exact, everOpened, everOpened, closed, collected_of_same streams, streams, List.append_nil]
    · have total := charges.touched.total offBack_idle
      have charged := charges.moved (paid.offBack_le charges.touched.origin)
      have before := paid.exact
      rw [everOpened] at before ⊢
      rw [closed, collected_of_put charges.touched.put, List.append_nil]
      omega

section

variable (config : Config) (scid : List UInt8) (localAddr peerAddr : SocketAddr) (addressVerified isServer : Bool)

theorem start_allPlaced : (start config scid localAddr peerAddr addressVerified isServer).conn.AllPlaced := by
  intro id stream found
  cases found

theorem start_paid (factor : 1 ≤ config.txCapFactor) :
    (start config scid localAddr peerAddr addressVerified isServer).Paid where
  placed := start_allPlaced config scid localAddr peerAddr addressVerified isServer
  funded := by
    have positive : (0 : Rat) ≤ 1 := by decide
    exact ⟨Nat.le_refl 0, Rat.le_trans positive factor⟩
  exact := rfl

end

/-- As long as the scaled capacity stays within the limit of the peer, what was sent does,
too, and it is the sum over all streams. A new limit that is admitted leaves room for what
was sent. -/
theorem tx_data_within_limit (config : Config) (scid : List UInt8) (localAddr peerAddr : SocketAddr)
    (addressVerified isServer : Bool) (factor : 1 ≤ config.txCapFactor) (calls : List Call) (history : History)
    (affordable : machine.Guarded (·.conn.Affordable)
      (start config scid localAddr peerAddr addressVerified isServer) calls)
    (completed : machine.run (start config scid localAddr peerAddr addressVerified isServer) calls = some history) :
    history.conn.txData ≤ history.conn.maxTxData ∧ history.conn.txData = history.everOpened (·.send.offBack) ∧
      ∀ peerParams cwinAvailable, history.conn.Affordable (.peerTransportParams peerParams cwinAvailable) →
        (history.conn.processPeerTransportParams peerParams cwinAvailable).isSome := by
  have paid := machine.run_keeps_of_guarded
    (fun history call next paid affordable stepped => Paid.step paid affordable stepped)
    (start_paid config scid localAddr peerAddr addressVerified isServer factor) affordable completed
  refine ⟨Nat.le_trans (Nat.le_add_right _ _) paid.funded.capped, paid.exact, ?_⟩
  intro peerParams cwinAvailable admitted
  rw [processPeerTransportParams, updateTxCap, subChecked, if_pos admitted.1]
  dsimp only [Option.bind_eq_bind, Option.bind_some, Option.pure_def]
  split <;> rfl

/-- As `smallConfig`, with a capacity of twice the congestion window. -/
def scaledConfig : Config := { smallConfig with txCapFactor := 2 }

def peerLimits : TransportParams := ⟨10, 50, 50, 50, 4, 4, 2⟩

/-- Two streams share the limit, one of them is stopped, and the limit grows. -/
theorem tx_data_within_limit_scaled : ∃ history, machine.run (start scaledConfig [1] ⟨[1], 1⟩ ⟨[2], 2⟩ false true)
        [.peerTransportParams peerLimits 5, .streamSend 1 [1, 2, 3] false, .streamSend 5 [4, 5] false,
          .sendStream 100, .stopSending 5 7, .maxData 20, .updateTxCap 8,
          .streamShutdown 1 .write 0 8] = some history ∧ history.conn.txData ≤ history.conn.maxTxData ∧
      history.conn.txData = history.everOpened (·.send.offBack) ∧ history.conn.txData = 3 :=
  exists_reached_of (·.conn.txData = 3) (by decide +kernel) fun history completed txData => by
    obtain ⟨within, exact_, _⟩ := tx_data_within_limit scaledConfig [1] ⟨[1], 1⟩ ⟨[2], 2⟩ false true (by decide) _
      history (by decide +kernel) completed
    exact ⟨within, exact_, txData⟩

/-- A congestion window of ten bytes, scaled by two, lets 15 bytes pass a limit of ten. -/
theorem scaled_capacity_exceeds_limit : ∃ history, machine.run (start scaledConfig [1] ⟨[1], 1⟩ ⟨[2], 2⟩ false true)
        [.peerTransportParams peerLimits 10, .streamSend 1 (List.replicate 15 0) false] = some history ∧
      ¬ history.conn.txData ≤ history.conn.maxTxData := by
  decide +kernel

end History

end Quiche.Connection
