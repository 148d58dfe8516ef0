import Quiche.Connection.Credit
import Quiche.Connection.Send

namespace Quiche

open Data

namespace Connection

/-- The frames that cancel a stream: its own data by RESET_STREAM, the peer's by
STOP_SENDING. -/
inductive Cancel where
  | reset
  | stop
deriving DecidableEq

def waits (map : StreamMap) (id : Nat) : Cancel → Bool
  | .reset => (map.reset.lookup id).isSome
  | .stop => (map.stopped.lookup id).isSome

def cancels : Frame → Option (Cancel × Nat)
  | .resetStream streamId _ _ => some (.reset, streamId)
  | .stopSending streamId _ => some (.stop, streamId)
  | _ => none

variable {conn next : Connection} {cancel : Cancel} {id : Nat}

section Waits

theorem isSome_insert {Value : Type} {values : AList fun _ : Nat => Value} {key : Nat} {value : Value}
    (present : (values.lookup id).isSome = true) : ((values.insert key value).lookup id).isSome = true := by
  rw [put_insert values key value]
  split
  · rfl
  · exact present

theorem isSome_erase {Value : Type} {values : AList fun _ : Nat => Value} {key : Nat} (different : id ≠ key)
    (present : (values.lookup id).isSome = true) : ((values.erase key).lookup id).isSome = true := by
  rw [dropped_erase values key, if_neg different]
  exact present

theorem waits_maintains (isServer : Bool) (cancel : Cancel) (id : Nat) :
    StreamMap.Maintains isServer {} (fun map => waits map id cancel = true) where
  open_ waiting _ handed := by
    have opened := StreamMap.getOrCreate_opened handed
    rw [waits.eq_def, opened.reset, opened.stopped]
    exact waiting
  change waiting _ _ _ := waiting
  prioritize _ _ waiting _ := waiting
  readable _ waiting := waiting
  writable _ waiting := waiting
  almostFull _ waiting := waiting
  blocked _ waiting := waiting
  flush waiting _ _ := waiting
  reset _ _ waiting _ := by
    cases cancel with
    | reset => exact isSome_insert waiting
    | stop => exact waiting
  stopped _ _ waiting := by
    cases cancel with
    | reset => exact waiting
    | stop => exact isSome_insert waiting
  collect waiting _ _ collected := by
    obtain ⟨stream, _, collected⟩ := Option.bind_eq_some_iff.mp collected
    cases collected
    exact waiting
  peerMax _ _ waiting := waiting

theorem waits_unlinks (cancel : Cancel) (id : Nat) : StreamMap.Unlinks fun map => waits map id cancel = true where
  reflush waiting _ _ := waiting
  unflush _ waiting := waiting

theorem create_waits {creation : Creation} {left : Nat} {frame : Option Frame}
    (waiting : waits conn.streams id cancel = true) (created : conn.create left creation = some (next, frame)) :
    waits next.streams id cancel = true ∨ ∃ sent, frame = some sent ∧ cancels sent = some (cancel, id) := by
  have maintains := waits_maintains conn.isServer cancel id
  cases creation with
  | maxStreamsBidi =>
    obtain ⟨⟨streams, made⟩, sent, same⟩ := Option.map_eq_some_iff.mp created
    cases same
    rcases Transit.sendMaxStreams_spec sent with ⟨rfl, _⟩ | ⟨rfl, _⟩ <;> exact .inl waiting
  | maxStreamsUni =>
    obtain ⟨⟨streams, made⟩, sent, same⟩ := Option.map_eq_some_iff.mp created
    cases same
    rcases Transit.sendMaxStreams_spec sent with ⟨rfl, _⟩ | ⟨rfl, _⟩ <;> exact .inl waiting
  | maxStreamData streamId now rtt minWindow =>
    exact .inl (sendMaxStreamData_maintains maintains trivial waiting created)
  | maxData now rtt =>
    rcases sendMaxData_spec created with ⟨rfl, _⟩ | ⟨_, _, ⟨_, rfl⟩ | ⟨_, _, rfl⟩⟩ <;> exact .inl waiting
  | stopSending streamId =>
    rcases sendStopSending_spec created with ⟨rfl, _⟩ | ⟨errorCode, _, rfl, rfl⟩
    · exact .inl waiting
    cases cancel with
    | reset => exact .inl waiting
    | stop =>
      by_cases same : id = streamId
      · exact .inr ⟨_, rfl, by rw [same]; rfl⟩
      · exact .inl (isSome_erase same waiting)
  | resetStream streamId =>
    rcases sendResetStream_spec created with ⟨rfl, _⟩ | ⟨errorCode, finalSize, _, rfl, rfl⟩
    · exact .inl waiting
    cases cancel with
    | reset =>
      by_cases same : id = streamId
      · exact .inr ⟨_, rfl, by rw [same]; rfl⟩
      · exact .inl (isSome_erase same waiting)
    | stop => exact .inl waiting
  | stream =>
    obtain ⟨⟨sender, header⟩, sending, same⟩ := Option.map_eq_some_iff.mp created
    cases same
    exact .inl (sendStream_maintains maintains (waits_unlinks cancel id) (fun _ => trivial) waiting sending)

end Waits

namespace Transit

variable {transit after : Transit}

/-- The cancellation is in flight or waits to be sent. -/
def Cancelled (cancel : Cancel) (id : Nat) (transit : Transit) : Prop :=
  transit.sent.Holds (cancels · = some (cancel, id)) ∨ waits transit.conn.streams id cancel = true

instance (transit : Transit) : Decidable (Cancelled cancel id transit) := inferInstanceAs (Decidable (_ ∨ _))

/-- A cancellation of a lost packet is the reset of a stream that still exists, or it is in flight or waiting
anyway. -/
def Resent (transit : Transit) : Event → Prop
  | .lost index => ∀ entry ∈ transit.sent.resolve index .lost, ∀ stream ∈ cancels entry.1,
      stream.1 = .reset ∧ (transit.conn.streams.get stream.2).isSome ∨
        Cancelled stream.1 stream.2 ⟨transit.conn, entry.2⟩
  | _ => True

instance (transit : Transit) : ∀ event, Decidable (transit.Resent event)
  | .lost _ => inferInstanceAs (Decidable (∀ _ ∈ _, ∀ _ ∈ _, _))
  | .call _ | .maxStreams .. | .create .. | .acked _ => .isTrue trivial

theorem lostFrame_waits {frame : Frame} (cancelled : cancels frame = some (.reset, id))
    (live : (conn.streams.get id).isSome = true) (lost : conn.lostFrame frame = some next) :
    waits next.streams id .reset = true := by
  rw [cancels.eq_def] at cancelled
  split at cancelled
  · cases cancelled
    rw [lostFrame, if_pos live] at lost
    cases lost
    rw [waits, StreamMap.insertReset, put_insert, if_pos rfl]
    rfl
  · cases cancelled
  · cases cancelled

theorem Cancelled.step {event : Event} (cancelled : transit.Cancelled cancel id) (resent : transit.Resent event)
    (stepped : transit.step event = some after) : after.Cancelled cancel id := by
  have maintains := waits_maintains transit.conn.isServer cancel id
  cases steps_of_step stepped with
  | call direct moved =>
    exact cancelled.imp_right fun waiting => step_maintains maintains (covers_all _ _) waiting direct moved
  | maxStreams limited =>
    refine cancelled.imp_right fun waiting => ?_
    rw [limited]
    split
    · exact waiting
    · exact waiting
  | @create _ _ _ frame created =>
    rcases cancelled with held | waiting
    · cases frame with
      | none => exact .inl held
      | some frame => exact .inl (held.send frame)
    · rcases create_waits waiting created with still | ⟨sent, rfl, carries⟩
      · exact .inr still
      · exact .inl (Ledger.holds_send carries)
  | acked resolved acked =>
    exact cancelled.imp (fun held => held.acked resolved) fun waiting =>
      ackedFrame_maintains maintains waiting (fun _ _ => ⟨trivial, trivial⟩) acked
  | @lost _ frame sent conn resolved lost =>
    have stays : waits transit.conn.streams id cancel = true → waits conn.streams id cancel = true :=
      fun waiting => lostFrame_maintains maintains waiting (fun _ _ => ⟨trivial, trivial⟩) lost
    rcases cancelled with held | waiting
    · by_cases carrier : cancels frame = some (cancel, id)
      · rcases resent (frame, sent) resolved (cancel, id) carrier with ⟨kind, live⟩ | other
        · dsimp only at kind live
          subst kind
          exact .inr (lostFrame_waits carrier live lost)
        · exact other.imp_right stays
      · exact .inl (held.lost resolved carrier)
    · exact .inr (stays waiting)

/-- In a run in which the last frame that cancels a stream is only lost as a RESET_STREAM
frame of a stream that is still there: once such a frame waits to be sent, it waits in every
later state, or one was acknowledged or is in flight. -/
theorem cancellation_kept {config : Config} {scid : List UInt8} {localAddr peerAddr : SocketAddr}
    {addressVerified isServer : Bool} {earlier later : List Event}
    (resent : machine.Guarded Resent (start config scid localAddr peerAddr addressVerified isServer)
      (earlier ++ later))
    (started : machine.run (start config scid localAddr peerAddr addressVerified isServer) earlier = some transit)
    (waiting : waits transit.conn.streams id cancel = true) (reached : machine.run transit later = some after) :
    after.sent.Holds (cancels · = some (cancel, id)) ∨ waits after.conn.streams id cancel = true := by
  have onwards := (Machine.guarded_append resent).2 transit started
  exact machine.run_keeps_of_guarded
    (fun _ _ _ cancelled resent stepped => Cancelled.step cancelled resent stepped) (.inr waiting) onwards reached

/-- Both cancellations are sent, and the RESET_STREAM frame is lost with the stream still
there. -/
theorem cancellation_kept_live :
    ∃ transit after, machine.run (start History.smallConfig [1] ⟨[1], 1⟩ ⟨[2], 2⟩ false true)
        [.call (.peerTransportParams History.peerLimits 20), .call (.streamSend 3 [1, 2, 3] false),
          .create .stream 100, .call (.streamShutdown 3 .write 8 20)] = some transit ∧
      waits transit.conn.streams 3 .reset = true ∧
      machine.run transit [.create (.resetStream 3) 100, .lost 1] = some after ∧
      (after.sent.Holds (cancels · = some (.reset, 3)) ∨ waits after.conn.streams 3 .reset = true) :=
  exists_reached_next_of (machine.run · [.create (.resetStream 3) 100, .lost 1])
    (fun transit _ => waits transit.conn.streams 3 .reset = true) (by decide +kernel)
    fun _ _ started reached waiting =>
      ⟨waiting, reached, cancellation_kept (by decide +kernel) started waiting reached⟩

/-- The data of a reset stream is acknowledged, which collects it, and then both
cancellations are lost. -/
theorem lost_cancellations_stay_lost :
    ∃ transit after, machine.run (start History.smallConfig [1] ⟨[1], 1⟩ ⟨[2], 2⟩ false true)
        [.call (.peerTransportParams History.peerLimits 20), .call (.streamSend 3 [1, 2, 3] false),
          .create .stream 100, .call (.streamShutdown 3 .write 8 20),
          .call (.stream 2 (.fromBytes [1] 0 false)), .call (.streamShutdown 2 .read 7 20)] = some transit ∧
      waits transit.conn.streams 3 .reset = true ∧ waits transit.conn.streams 2 .stop = true ∧ machine.run transit
        [.create (.stopSending 2) 100, .create (.resetStream 3) 100, .acked 0, .lost 1, .lost 2] = some after ∧
      ¬ (after.sent.Holds (cancels · = some (.reset, 3)) ∨ waits after.conn.streams 3 .reset = true) ∧
      ¬ (after.sent.Holds (cancels · = some (.stop, 2)) ∨ waits after.conn.streams 2 .stop = true) :=
  exists_reached_next_of
    (machine.run · [.create (.stopSending 2) 100, .create (.resetStream 3) 100, .acked 0, .lost 1, .lost 2])
    (fun transit after => (waits transit.conn.streams 3 .reset = true ∧ waits transit.conn.streams 2 .stop = true) ∧
      ¬ after.Cancelled .reset 3 ∧ ¬ after.Cancelled .stop 2) (by decide +kernel)
    fun _ _ _ reached ⟨⟨reset, stop⟩, lost⟩ => ⟨reset, stop, reached, lost⟩

end Transit

end Connection

end Quiche
