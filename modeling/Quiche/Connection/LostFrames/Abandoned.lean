import Quiche.Connection.LostFrames.Spared

namespace Quiche

open Data

namespace Resending

variable {epoch : Epoch} {state after : Resending} {path left : LossyPath} {frames : List Frame}
  {paths rest : List LossyPath} {result : Except Error Unit} {reason : Error}

/-- The demands met are those of before and those that the handled frames serve. -/
structure Processed (epoch : Epoch) (state : Resending) (handled : List Frame) (after : Resending) : Prop where
  arranged : after.Arranged
  alike : Alike state after
  met_iff : ∀ demand, after.Met epoch demand ↔ state.Met epoch demand ∨ ∃ earlier ∈ handled, state.Serves earlier demand

theorem processed_nil (arranged : state.Arranged) : Processed epoch state [] state :=
  ⟨arranged, alike_of_streams rfl, fun demand => by simp⟩

theorem Processed.append {middle : Resending} {first second : List Frame} (before : Processed epoch state first middle)
    (later : Processed epoch middle second after) : Processed epoch state (first ++ second) after := by
  refine ⟨later.arranged, before.alike.trans later.alike, fun demand => ?_⟩
  rw [later.met_iff, before.met_iff, or_assoc]
  simp only [before.alike.serves_iff, List.mem_append, or_and_right, exists_or]

theorem Redone.processed {frame : Frame} (redone : Redone epoch state frame after) :
    Processed epoch state [frame] after := ⟨redone.arranged, redone.alike, fun demand => by simp [redone.met_iff]⟩

/-- The lost frames of a path are handled up to the first one that fails; those behind it are dropped. -/
structure Drained (epoch : Epoch) (state : Resending) (path : LossyPath) (frames : List Frame) (after : Resending)
    (left : LossyPath) (result : Except Error Unit) (handled dropped : List Frame) (last : ConnectionIdSeqSet) :
    Prop where
  recovery : left.recovery = path.recovery
  parts : frames = handled ++ dropped
  processed : Processed epoch state handled after
  whole : result = .ok () → dropped = [] ∧ after.conn.ids.retireDcidSeqs = last
  short : ∀ reason, result = .error reason → dropped ≠ []

theorem resendAll_drained (arranged : state.Arranged)
    (resent : resendAll epoch frames state path = some (after, left, result)) :
    ∃ handled dropped last, state.conn.ids.retireDcidSeqs.admitFrames frames = (last, handled, dropped) ∧
      Drained epoch state path frames after left result handled dropped last := by
  induction frames generalizing state path with
  | nil =>
    cases resent
    exact ⟨[], [], _, rfl, rfl, rfl, processed_nil arranged, fun _ => ⟨rfl, rfl⟩, nofun⟩
  | cons frame frames ih =>
    rw [resendAll] at resent
    rw [ConnectionIdSeqSet.admitFrames]
    cases done : state.resend epoch path frame with
    | none =>
      rw [done] at resent
      cases resent
    | some outcome =>
      obtain ⟨middle, between, single⟩ := outcome
      rw [done] at resent
      have first := resend_outcome arranged done
      cases single with
      | error reason =>
        cases resent
        obtain ⟨rfl, full⟩ := first.failed reason rfl
        rw [full]
        exact ⟨[], frame :: frames, _, rfl, first.recovery, rfl, processed_nil arranged, nofun, fun _ _ => nofun⟩
      | ok =>
        obtain ⟨redone, admitted⟩ := first.redone rfl
        obtain ⟨handled, dropped, last, split, drained⟩ := ih redone.arranged resent
        rw [admitted]
        dsimp only
        rw [split]
        exact ⟨frame :: handled, dropped, last, rfl, drained.recovery.trans first.recovery,
          congrArg (frame :: ·) drained.parts, redone.processed.append drained.processed, drained.whole,
          drained.short⟩

theorem lostFrames_getLostFrames (path : LossyPath) (epoch : Epoch) :
    (path.getLostFrames epoch).lostFrames epoch = [] := by
  rw [LossyPath.lostFrames, LossyPath.getLostFrames]
  cases path.recovery with
  | legacy recovery =>
    simp only [Recovery.getLostFrames, Recovery.frames, LegacyRecovery.getLostFrames, LegacyRecovery.setEpoch,
      Function.update_self]
    rfl
  | gcongestion recovery =>
    simp only [Recovery.getLostFrames, Recovery.frames, GRecovery.getLostFrames, GRecovery.setEpoch,
      Function.update_self]
    rfl

/-- Every lost frame is fine or stays in the list. -/
def Saves (epoch : Epoch) (fine : Frame → Prop) (path left : LossyPath) : Prop :=
  ∀ frame ∈ path.lostFrames epoch, fine frame ∨ frame ∈ left.lostFrames epoch

theorem Drained.saves_iff {handled dropped : List Frame} {last : ConnectionIdSeqSet} {fine : Frame → Prop}
    (drained : Drained epoch state (path.getLostFrames epoch) (path.lostFrames epoch) after left result handled
      dropped last) (fits : ∀ frame ∈ handled, fine frame) :
    Saves epoch fine path left ↔ ∀ frame ∈ dropped, fine frame := by
  have taken : left.lostFrames epoch = [] := by
    rw [← lostFrames_getLostFrames path epoch, LossyPath.lostFrames, drained.recovery]
    rfl
  rw [Saves, taken, drained.parts]
  simp only [List.not_mem_nil, or_false, List.mem_append]
  exact ⟨fun all frame member => all frame (.inr member), fun all frame member => member.elim (fits frame) (all frame)⟩

theorem processLostFrames_saves (arranged : state.Arranged)
    (processed : processLostFrames epoch paths state = some (after, rest, result)) :
    ∃ handled dropped, state.conn.ids.retireDcidSeqs.admitAll (paths.map (·.lostFrames epoch)) = (handled, dropped) ∧
      Processed epoch state handled after ∧ ∀ fine : Frame → Prop, (∀ frame ∈ handled, fine frame) →
        (List.Forall₂ (Saves epoch fine) paths rest ↔ ∀ frame ∈ dropped, fine frame) := by
  induction paths generalizing state rest with
  | nil =>
    cases processed
    exact ⟨[], [], rfl, processed_nil arranged, fun fine fits => by simp⟩
  | cons path others ih =>
    rw [processLostFrames] at processed
    cases drained : resendAll epoch (path.lostFrames epoch) state (path.getLostFrames epoch) with
    | none =>
      rw [drained] at processed
      cases processed
    | some outcome =>
      obtain ⟨middle, left, single⟩ := outcome
      rw [drained] at processed
      obtain ⟨handled, dropped, last, split, first⟩ := resendAll_drained arranged drained
      rw [List.map_cons, ConnectionIdSeqSet.admitAll, split]
      cases single with
      | error reason =>
        cases processed
        obtain ⟨next, remaining, rfl⟩ := List.exists_cons_of_ne_nil (first.short reason rfl)
        refine ⟨handled, next :: remaining, rfl, first.processed, fun fine fits => ?_⟩
        rw [List.forall₂_cons, first.saves_iff fits, and_iff_left_iff_imp]
        intro _
        rw [List.forall₂_same]
        exact fun other _ frame member => .inr member
      | ok =>
        obtain ⟨⟨final, following, ended⟩, continued, processed⟩ := Option.bind_eq_some_iff.mp processed
        cases processed
        obtain ⟨rfl, rfl⟩ := first.whole rfl
        obtain ⟨more, dropped, spread, later, saved⟩ := ih first.processed.arranged continued
        refine ⟨handled ++ more, dropped, ?_, first.processed.append later, fun fine fits => ?_⟩
        · dsimp only
          rw [spread]
        · obtain ⟨here, there⟩ := List.forall_mem_append.mp fits
          rw [List.forall₂_cons, first.saves_iff here, saved fine there]
          simp

theorem saves_iff_spared (arranged : state.Arranged)
    (failed : processLostFrames epoch paths state = some (after, rest, result)) :
    List.Forall₂ (Saves epoch (after.Recorded epoch)) paths rest ↔ state.Spared epoch paths := by
  obtain ⟨handled, dropped, split, processed, saved⟩ := processLostFrames_saves arranged failed
  have served : ∀ frame ∈ handled, after.Recorded epoch frame := by
    intro frame member demand demands
    exact (processed.met_iff demand).mpr (.inr ⟨frame, member, .inl demands⟩)
  rw [saved _ served, Spared, split]
  simp only [Recorded, processed.met_iff]

end Resending

namespace Resender

open Resending

variable {run next : Resender} {event : Event}

theorem newCryptoStream_placed : newCryptoStream.Placed := by
  rw [newCryptoStream]
  exact SendBuf.new_placed _

theorem start_arranged (config : Config) (scid : List UInt8) (localAddr peerAddr : SocketAddr)
    (addressVerified isServer : Bool) :
    (start config scid localAddr peerAddr addressVerified isServer).state.Arranged := by
  refine ⟨⟨fun id stream found => ?_, fun id stream found => ?_⟩, fun _ => newCryptoStream_placed⟩
  · cases found
  · cases found

theorem setCryptoStream_arranged {epoch : Epoch} {send : SendBuf} (arranged : run.state.Arranged) (placed : send.Placed) :
    (run.setCryptoStream epoch send).state.Arranged := by
  refine ⟨arranged.streams, fun other => ?_⟩
  show (Function.update run.state.cryptoStreams epoch send other).Placed
  rw [Function.update_apply]
  split
  · exact placed
  · exact arranged.crypto other

theorem step_arranged (arranged : run.state.Arranged) (stepped : run.step event = some next) : next.state.Arranged := by
  cases event with
  | transit event =>
    obtain ⟨moved, stepping, stepped⟩ := Option.bind_eq_some_iff.mp stepped
    cases stepped
    refine ⟨?_, arranged.crypto⟩
    exact Connection.Transit.step_maintains (StreamMap.arranged_maintains _) StreamMap.arranged_sheds
      (fun call _ => Connection.covers_all _ call) (fun _ _ => trivial) (fun _ _ _ _ => ⟨trivial, trivial⟩)
      arranged.streams stepping
  | cryptoClear epoch =>
    cases stepped
    exact setCryptoStream_arranged arranged newCryptoStream_placed
  | cryptoWrite epoch data =>
    obtain ⟨⟨send, result⟩, written, stepped⟩ := Option.bind_eq_some_iff.mp stepped
    cases stepped
    exact setCryptoStream_arranged arranged ((SendBuf.write_extends written).placed (arranged.crypto epoch))
  | cryptoEmit epoch outLen =>
    obtain ⟨⟨send, out, fin⟩, emitted, stepped⟩ := Option.bind_eq_some_iff.mp stepped
    cases stepped
    exact setCryptoStream_arranged arranged ((SendBuf.emit_kept emitted).placed (arranged.crypto epoch))
  | cryptoAcked epoch offset length =>
    obtain ⟨send, acked, stepped⟩ := Option.bind_eq_some_iff.mp stepped
    cases stepped
    exact setCryptoStream_arranged arranged ((SendBuf.ackAndDrop_kept acked).placed (arranged.crypto epoch))
  | others ids paths ackElicited handshakeDoneAcked handshakeDoneSent =>
    cases stepped
    exact ⟨arranged.streams, arranged.crypto⟩
  | processLostFrames epoch =>
    obtain ⟨⟨state, paths, result⟩, processed, stepped⟩ := Option.bind_eq_some_iff.mp stepped
    cases stepped
    obtain ⟨_, _, _, processed, _⟩ := processLostFrames_saves arranged processed
    exact processed.arranged

/-- When `send_single` fails while it processes lost frames, each of them was recorded or is still pending exactly
where nothing had to be done for those behind the RETIRE_CONNECTION_ID that found the set full. -/
theorem lost_frames_all_or_nothing {config : Config} {scid : List UInt8} {localAddr peerAddr : SocketAddr}
    {addressVerified isServer : Bool} {events : List Event}
    (reached : machine.run (start config scid localAddr peerAddr addressVerified isServer) events = some run)
    {epoch : Epoch} {after : Resending} {left : List LossyPath} {reason : Error}
    (failed : processLostFrames epoch run.paths run.state = some (after, left, .error reason)) :
    List.Forall₂ (fun path rest => ∀ frame ∈ path.lostFrames epoch,
      after.Recorded epoch frame ∨ frame ∈ rest.lostFrames epoch) run.paths left ↔
        run.state.Spared epoch run.paths := by
  have arranged := machine.run_keeps (fun _ _ _ arranged stepped => step_arranged arranged stepped)
    (start_arranged config scid localAddr peerAddr addressVerified isServer) reached
  exact saves_iff_spared arranged failed

def retiring (lost : List Frame) : List Event :=
  let ids := { ConnectionIdentifiers.new 2 [1] 0 none with
    dcids := ⟨[⟨[8], 7, some 0, some 0⟩], 2⟩
    retireDcidSeqs := ⟨[6, 5, 4, 3, 2, 1], 6⟩
    largestPeerRetirePriorTo := 7
    largestDestinationSeq := 7 }
  let recovery := LegacyRecovery.new 333000000 25000000 0
  let path :=
    ⟨.legacy (recovery.setEpoch .application { recovery.epochs .application with lostFrames := lost }), none, 0, 0⟩
  [.transit (.call (.peerTransportParams Connection.History.peerLimits 20)),
    .transit (.call (.streamSend 1 [1, 2, 3] false)), .transit (.create .stream 100),
    .others ids [path] (fun _ => false) false false]

/-- The data is lost next to a RETIRE_CONNECTION_ID that finds the set full, and is not sent again. -/
theorem lost_data_vanishes : ∃ run after left,
    machine.run (start Connection.History.smallConfig [1] ⟨[1], 1⟩ ⟨[2], 2⟩ false true)
      (retiring [.retireConnectionId 0, .streamHeader 1 0 3 false]) = some run ∧
    processLostFrames .application run.paths run.state = some (after, left, .error .idLimit) ∧
    ¬ List.Forall₂ (fun path rest => ∀ frame ∈ path.lostFrames .application,
      after.Recorded .application frame ∨ frame ∈ rest.lostFrames .application) run.paths left := by
  have computed : ∃ run ∈ machine.run (start Connection.History.smallConfig [1] ⟨[1], 1⟩ ⟨[2], 2⟩ false true)
      (retiring [.retireConnectionId 0, .streamHeader 1 0 3 false]),
        ∃ lost ∈ processLostFrames .application run.paths run.state, lost.2.2 = .error .idLimit ∧
          run.paths.map (·.lostFrames .application) = [[.retireConnectionId 0, .streamHeader 1 0 3 false]] ∧
          lost.2.1.map (·.lostFrames .application) = [[]] ∧ ∃ stream ∈ lost.1.conn.streams.get 1,
            stream.send.ackOff = 0 ∧ stream.send.data.map (fun buf => (buf.viewOff, buf.off, buf.maxOff)) = [(0, 3, 3)] := by
    decide +kernel
  obtain ⟨run, reached, ⟨after, left, _⟩, processed, rfl, pending, taken, stream, found, ackOff, spans⟩ := computed
  obtain ⟨path, onePath, pending⟩ := List.map_eq_singleton_iff.mp pending
  obtain ⟨rest, oneLeft, taken⟩ := List.map_eq_singleton_iff.mp taken
  obtain ⟨buf, oneBuf, span⟩ := List.map_eq_singleton_iff.mp spans
  simp only [Prod.mk.injEq] at span
  refine ⟨run, after, left, reached, processed, fun saves => ?_⟩
  rw [onePath, show left = [rest] from oneLeft] at saves
  have saved := (List.forall₂_cons.mp saves).1 (.streamHeader 1 0 3 false) (by simp [pending])
  rw [taken] at saved
  have recorded := saved.resolve_right (by simp)
  have waits := recorded (.stream 1 0) (.inl ⟨0, rfl, Nat.le_refl 0, by decide⟩) stream found
  obtain ⟨other, member, lower, _⟩ := waits (Nat.le_of_eq ackOff) ⟨buf, by simp [oneBuf], by omega, by omega⟩
  rw [oneBuf, List.mem_singleton] at member
  subst member
  omega

/-- Behind a RETIRE_CONNECTION_ID that was to be sent anyway comes data that waits already. -/
theorem lost_frames_all_or_nothing_again : ∃ run after left,
    machine.run (start Connection.History.smallConfig [1] ⟨[1], 1⟩ ⟨[2], 2⟩ false true)
      (retiring [.streamHeader 1 0 3 false, .retireConnectionId 2, .streamHeader 1 0 3 false]) = some run ∧
    processLostFrames .application run.paths run.state = some (after, left, .error .idLimit) ∧
    (List.Forall₂ (fun path rest => ∀ frame ∈ path.lostFrames .application,
      after.Recorded .application frame ∨ frame ∈ rest.lostFrames .application) run.paths left ↔
        run.state.Spared .application run.paths) := by
  have computed : ∃ run ∈ machine.run (start Connection.History.smallConfig [1] ⟨[1], 1⟩ ⟨[2], 2⟩ false true)
      (retiring [.streamHeader 1 0 3 false, .retireConnectionId 2, .streamHeader 1 0 3 false]),
        ∃ lost ∈ processLostFrames .application run.paths run.state, lost.2.2 = .error .idLimit := by
    decide +kernel
  obtain ⟨run, reached, ⟨after, left, _⟩, processed, rfl⟩ := computed
  exact ⟨run, after, left, reached, processed, lost_frames_all_or_nothing reached processed⟩

end Resender

end Quiche
