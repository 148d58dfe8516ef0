import Quiche.Connection.Accounting
import Quiche.Connection.Maintain
import Quiche.Octets.Wire
import Quiche.Stream.Map.Limits

namespace Quiche.Connection

open Data

variable {conn next : Connection} {id : Nat}

section Consumed

/-- Flow control changes in what was consumed only. -/
structure Credited (conn next : Connection) : Prop where
  control : ∃ consumed, conn.flowControl.consumed ≤ consumed ∧ next.flowControl = { conn.flowControl with consumed }
  almostFull : conn.almostFull = true → next.almostFull = true

theorem Credited.of_eq (flowControl : next.flowControl = conn.flowControl)
    (almostFull : next.almostFull = conn.almostFull) : Credited conn next :=
  ⟨⟨conn.flowControl.consumed, Nat.le_refl _, flowControl⟩, fun full => almostFull.trans full⟩

theorem addConsumed_credited {count : Nat} (added : conn.addConsumed count = some next) : Credited conn next := by
  obtain ⟨control, consumed, added⟩ := Option.bind_eq_some_iff.mp added
  obtain ⟨update, _, added⟩ := Option.bind_eq_some_iff.mp added
  cases added
  obtain ⟨total, sum, same⟩ := Option.map_eq_some_iff.mp consumed
  cases same
  refine ⟨⟨total, ?_, rfl⟩, fun full => by rw [full]; rfl⟩
  rw [addU64_spec sum]
  exact Nat.le_add_right _ _

theorem processStream_credited {data : RangeBuf} (processed : conn.processStream id data = some (next, .ok ())) :
    Credited conn next := by
  rw [processStream] at processed
  split at processed
  · cases processed
  obtain ⟨room, _, processed⟩ := Option.bind_eq_some_iff.mp processed
  split at processed
  · cases processed
    exact .of_eq rfl rfl
  · cases processed
  dsimp only at processed
  split at processed
  · cases processed
  obtain ⟨⟨recv, result⟩, _, processed⟩ := Option.bind_eq_some_iff.mp processed
  cases result with
  | error error => cases processed
  | ok _ =>
    dsimp only at processed
    split at processed
    · obtain ⟨credited, added, processed⟩ := Option.bind_eq_some_iff.mp processed
      cases processed
      have credited := addConsumed_credited added
      exact ⟨credited.control, credited.almostFull⟩
    · cases processed
      exact .of_eq rfl rfl

theorem streamRecv_credited {cap : Nat} {result : Except Error (List UInt8 × Bool)}
    (received : conn.streamRecv id cap = some (next, result)) : Credited conn next := by
  rw [streamRecv] at received
  split at received
  · cases received
    exact .of_eq rfl rfl
  split at received
  · cases received
    exact .of_eq rfl rfl
  split at received
  · cases received
    exact .of_eq rfl rfl
  obtain ⟨⟨recv, output⟩, _, received⟩ := Option.bind_eq_some_iff.mp received
  cases output with
  | error error =>
    obtain ⟨streams, _, received⟩ := Option.bind_eq_some_iff.mp received
    cases received
    exact .of_eq rfl rfl
  | ok output =>
    obtain ⟨almostFull, _, received⟩ := Option.bind_eq_some_iff.mp received
    obtain ⟨streams, _, received⟩ := Option.bind_eq_some_iff.mp received
    obtain ⟨credited, added, received⟩ := Option.bind_eq_some_iff.mp received
    cases received
    have credited := addConsumed_credited added
    exact ⟨credited.control, credited.almostFull⟩

theorem step_credited {call : Call} (direct : call.direct = true) (stepped : conn.step call = some next) :
    Credited conn next := by
  have framed := (step_alters stepped).2
  cases call with
  | stream streamId data => exact processStream_credited (processed_spec stepped)
  | streamRecv streamId cap =>
    obtain ⟨result, received⟩ := called_spec stepped
    exact streamRecv_credited received
  | updateFlowControl => contradiction
  | _ =>
    obtain ⟨flowControl, almostFull⟩ := framed.control rfl
    exact .of_eq flowControl almostFull

end Consumed

section MaxData

/-- The limit may be raised. -/
def Renewable (control : FlowControl) : Prop :=
  control.maxData < control.consumed + min control.window control.maxWindow

instance (control : FlowControl) : Decidable (Renewable control) := inferInstanceAs (Decidable (_ < _))

/-- A `MAX_DATA` frame with the limit or a higher one is sent as soon as it fits. -/
def Renews (conn : Connection) (limit : Nat) : Prop :=
  ∀ now rtt, conn.flowControl.consumed + 2 * conn.flowControl.window < 2 ^ 62 →
    ∃ max len, limit ≤ max ∧ (Frame.maxData max).wireLen = some len ∧
      ∀ left, len ≤ left → ∃ next, conn.sendMaxData now rtt left = some (next, some (.maxData max))

variable {now rtt left : Nat} {frame : Option Frame}

theorem autotuneWindow_spec {control tuned : FlowControl} (done : control.autotuneWindow now rtt = some tuned) :
    ∃ window, tuned = { control with window } ∧
      (window = control.window ∨ window = min (control.window * 2) control.maxWindow) := by
  rw [FlowControl.autotuneWindow] at done
  split at done
  · cases done
    exact ⟨control.window, rfl, .inl rfl⟩
  split at done
  · dsimp only at done
    split at done
    · cases done
      exact ⟨_, rfl, .inr rfl⟩
    · cases done
  · cases done
    exact ⟨control.window, rfl, .inl rfl⟩

theorem autotuneWindow_exists (control : FlowControl) (now rtt : Nat) (small : 2 * control.window < 2 ^ 64) :
    ∃ tuned, control.autotuneWindow now rtt = some tuned := by
  rw [FlowControl.autotuneWindow]
  split
  · exact ⟨_, rfl⟩
  split
  · have bound : control.window * windowIncreaseFactor < 2 ^ 64 := by
      rw [windowIncreaseFactor]
      omega
    dsimp only
    rw [if_pos bound]
    exact ⟨_, rfl⟩
  · exact ⟨_, rfl⟩

theorem wireLen_maxData {max : Nat} (small : max < 2 ^ 62) : ∃ len, (Frame.maxData max).wireLen = some len := by
  obtain ⟨len, _, known, _⟩ := Octets.varintLen_exists small
  refine ⟨1 + (len + 0), ?_⟩
  rw [Frame.wireLen, Frame.varintsLen, known]
  rfl

theorem renews_of_renewable (full : conn.almostFull = true) (renewable : Renewable conn.flowControl) :
    Renews conn conn.flowControl.maxData := by
  intro now rtt small
  have lowered := Nat.min_le_left conn.flowControl.window conn.flowControl.maxWindow
  rw [Renewable] at renewable
  obtain ⟨tuned, done⟩ := autotuneWindow_exists conn.flowControl now rtt (by omega)
  obtain ⟨window, rfl, choice⟩ := autotuneWindow_spec done
  have bounds : conn.flowControl.maxData ≤ conn.flowControl.consumed + window ∧
      conn.flowControl.consumed + window < 2 ^ 62 := by
    rcases choice with rfl | rfl <;> omega
  obtain ⟨len, known⟩ := wireLen_maxData bounds.2
  refine ⟨_, len, bounds.1, known, fun left room => ?_⟩
  have plain : conn.flowControl.maxDataNext = some (conn.flowControl.consumed + conn.flowControl.window) :=
    addU64_of_lt (by omega)
  have next : ({ conn.flowControl with window } : FlowControl).maxDataNext =
      some (conn.flowControl.consumed + window) := by
    apply addU64_of_lt
    dsimp only
    omega
  simp only [sendMaxData, full, plain, done, next, known, room, FlowControl.updateMaxData, if_true,
    Option.bind_eq_bind, Option.bind_some, Option.map_some, Option.pure_def]
  rw [if_pos (by omega)]
  exact ⟨_, rfl⟩

theorem sendMaxData_spec (sent : conn.sendMaxData now rtt left = some (next, frame)) :
    next = conn ∧ frame = none ∨ ∃ window, (window = conn.flowControl.window ∨
        window = min (conn.flowControl.window * 2) conn.flowControl.maxWindow) ∧
      (frame = none ∧ next = { conn with flowControl := { conn.flowControl with window } } ∨
        ∃ max, frame = some (.maxData max) ∧ next = { conn with
          flowControl := { conn.flowControl with window, maxData := max, lastUpdate := some now }
          almostFull := false }) := by
  rw [sendMaxData] at sent
  split at sent
  · obtain ⟨plain, _, sent⟩ := Option.bind_eq_some_iff.mp sent
    split at sent
    · obtain ⟨tuned, done, sent⟩ := Option.bind_eq_some_iff.mp sent
      obtain ⟨max, known, sent⟩ := Option.bind_eq_some_iff.mp sent
      obtain ⟨len, _, sent⟩ := Option.bind_eq_some_iff.mp sent
      obtain ⟨window, rfl, choice⟩ := autotuneWindow_spec done
      refine .inr ⟨window, choice, ?_⟩
      split at sent
      · obtain ⟨updated, committed, sent⟩ := Option.bind_eq_some_iff.mp sent
        cases sent
        rw [FlowControl.updateMaxData, known] at committed
        cases committed
        exact .inr ⟨max, rfl, rfl⟩
      · cases sent
        exact .inl ⟨rfl, rfl⟩
    · cases sent
      exact .inl ⟨rfl, rfl⟩
  · cases sent
    exact .inl ⟨rfl, rfl⟩

theorem sendMaxStreamData_spec {minWindow : Nat}
    (sent : conn.sendMaxStreamData id now rtt minWindow left = some (next, frame)) :
    (next.flowControl = conn.flowControl ∧ next.almostFull = conn.almostFull ∨
      next.flowControl = conn.flowControl.ensureWindowLowerBound minWindow ∧ next.almostFull = true) ∧
    (frame = none ∨ ∃ max, frame = some (.maxStreamData id max)) ∧ next = { conn with
      streams := next.streams, flowControl := next.flowControl, almostFull := next.almostFull } := by
  rw [sendMaxStreamData] at sent
  split at sent
  · split at sent
    · cases sent
      exact ⟨.inl ⟨rfl, rfl⟩, .inl rfl, rfl⟩
    · obtain ⟨tuned, _, sent⟩ := Option.bind_eq_some_iff.mp sent
      obtain ⟨max, _, sent⟩ := Option.bind_eq_some_iff.mp sent
      obtain ⟨len, _, sent⟩ := Option.bind_eq_some_iff.mp sent
      split at sent
      · obtain ⟨updated, _, sent⟩ := Option.bind_eq_some_iff.mp sent
        cases sent
        exact ⟨.inr ⟨rfl, rfl⟩, .inr ⟨max, rfl⟩, rfl⟩
      · cases sent
        exact ⟨.inl ⟨rfl, rfl⟩, .inl rfl, rfl⟩
  · cases sent
    exact ⟨.inl ⟨rfl, rfl⟩, .inl rfl, rfl⟩

def Creation.movesLimit : Creation → Bool
  | .maxStreamData .. | .maxData .. => true
  | .maxStreamsBidi | .maxStreamsUni | .stopSending _ | .resetStream _ | .stream => false

theorem create_credited {creation : Creation} (other : creation.movesLimit = false)
    (created : conn.create left creation = some (next, frame)) : Credited conn next := by
  cases creation with
  | maxStreamsBidi =>
    obtain ⟨⟨streams, made⟩, _, same⟩ := Option.map_eq_some_iff.mp created
    cases same
    exact .of_eq rfl rfl
  | maxStreamsUni =>
    obtain ⟨⟨streams, made⟩, _, same⟩ := Option.map_eq_some_iff.mp created
    cases same
    exact .of_eq rfl rfl
  | maxStreamData | maxData => contradiction
  | stopSending streamId =>
    rcases sendStopSending_spec created with ⟨rfl, _⟩ | ⟨_, _, _, rfl⟩ <;> exact .of_eq rfl rfl
  | resetStream streamId =>
    rcases sendResetStream_spec created with ⟨rfl, _⟩ | ⟨_, _, _, _, rfl⟩ <;> exact .of_eq rfl rfl
  | stream =>
    obtain ⟨⟨sender, header⟩, sending, same⟩ := Option.map_eq_some_iff.mp created
    cases same
    rcases sendStream_spec sending with rfl | ⟨_, _, frame⟩
    · exact .of_eq rfl rfl
    · exact .of_eq (by rw [frame]) (by rw [frame])

theorem ackedFrame_credited {frame : Frame} (acked : conn.ackedFrame frame = some next) : Credited conn next := by
  rw [ackedFrame.eq_def] at acked
  split at acked
  · rcases ackedStream_spec acked with ⟨_, rfl⟩ | ⟨_, _, _, _, _, frame⟩
    · exact .of_eq rfl rfl
    · exact .of_eq (by rw [frame]) (by rw [frame])
  · rcases ackedResetStream_spec acked with rfl | ⟨_, _, _, frame⟩
    · exact .of_eq rfl rfl
    · exact .of_eq (by rw [frame]) (by rw [frame])
  · cases acked
    exact .of_eq rfl rfl

theorem lostFrame_credited {frame : Frame} (lost : conn.lostFrame frame = some next) : Credited conn next := by
  rw [lostFrame.eq_def] at lost
  split at lost
  · rcases lostStream_spec lost with rfl | ⟨_, _, _, _, _, _, frame⟩
    · exact .of_eq rfl rfl
    · exact .of_eq (by rw [frame]) (by rw [frame])
  · split at lost <;> cases lost <;> exact .of_eq rfl rfl
  · split at lost <;> cases lost <;> exact .of_eq rfl rfl
  · cases lost
    exact ⟨⟨_, Nat.le_refl _, rfl⟩, fun _ => rfl⟩
  · cases lost
    exact .of_eq rfl rfl

end MaxData

namespace Transit

variable {transit after : Transit} {initial : Nat}

section MaxData

/-- Someone answers for the limit that the connection committed to. -/
def Backed (initial : Nat) (transit : Transit) : Prop :=
  transit.conn.flowControl.maxData = initial ∨ transit.sent.Holds (· = .maxData transit.conn.flowControl.maxData) ∨
    transit.conn.almostFull = true ∧ Renewable transit.conn.flowControl

/-- Of a lost packet the current limit is still in flight, or it may be raised. -/
def Renewed (transit : Transit) : Event → Prop
  | .lost index => ∀ entry ∈ transit.sent.resolve index .lost,
      entry.1 = .maxData transit.conn.flowControl.maxData →
        entry.2.Holds (· = .maxData transit.conn.flowControl.maxData) ∨ Renewable transit.conn.flowControl
  | _ => True

instance (transit : Transit) : ∀ event, Decidable (transit.Renewed event)
  | .lost _ => inferInstanceAs (Decidable (∀ _ ∈ _, _ → _ ∨ _))
  | .call _ | .maxStreams .. | .create .. | .acked _ => .isTrue trivial

section

variable (backed : transit.Backed initial)

include backed

theorem Backed.credited {sent : Ledger Frame} (credited : Credited transit.conn conn)
    (held : transit.sent.Holds (· = .maxData transit.conn.flowControl.maxData) →
      sent.Holds (· = .maxData transit.conn.flowControl.maxData)) : Backed initial ⟨conn, sent⟩ := by
  obtain ⟨consumed, grown, control⟩ := credited.control
  have same : conn.flowControl.maxData = transit.conn.flowControl.maxData := by rw [control]
  rw [Backed]
  dsimp only
  rw [same]
  rcases backed with start | carried | ⟨full, renewable⟩
  · exact .inl start
  · exact .inr (.inl (held carried))
  · refine .inr (.inr ⟨credited.almostFull full, ?_⟩)
    rw [Renewable] at renewable ⊢
    rw [control]
    dsimp only
    omega

theorem Backed.tuned {window : Nat}
    (changed : conn.flowControl = { transit.conn.flowControl with window })
    (almostFull : transit.conn.almostFull = true → conn.almostFull = true)
    (grown : min transit.conn.flowControl.window transit.conn.flowControl.maxWindow ≤
      min window transit.conn.flowControl.maxWindow) : Backed initial ⟨conn, transit.sent⟩ := by
  rw [Backed] at backed ⊢
  rw [Renewable] at backed ⊢
  dsimp only
  rw [changed]
  dsimp only
  rcases backed with start | carried | ⟨full, renewable⟩
  · exact .inl start
  · exact .inr (.inl carried)
  · exact .inr (.inr ⟨almostFull full, by omega⟩)

theorem Backed.create {creation : Creation} {left : Nat} {frame : Option Frame}
    (created : transit.conn.create left creation = some (conn, frame)) :
    Backed initial ⟨conn, frame.elim transit.sent transit.sent.send⟩ := by
  have sends : ∀ {wanted : Frame → Prop}, transit.sent.Holds wanted →
      (frame.elim transit.sent transit.sent.send).Holds wanted := by
    intro wanted holds
    cases frame with
    | none => exact holds
    | some frame => exact holds.send frame
  have appended : Backed initial ⟨conn, transit.sent⟩ →
      Backed initial ⟨conn, frame.elim transit.sent transit.sent.send⟩ := Or.imp_right (Or.imp_left sends)
  cases creation with
  | maxData now rtt =>
    rcases sendMaxData_spec created with
      ⟨rfl, rfl⟩ | ⟨window, choice, ⟨rfl, rfl⟩ | ⟨max, rfl, rfl⟩⟩
    · exact backed
    · exact backed.tuned rfl (fun full => full) (by rcases choice with rfl | rfl <;> omega)
    · exact .inr (.inl (Ledger.holds_send rfl))
  | maxStreamData streamId now rtt minWindow =>
    apply appended
    rcases (sendMaxStreamData_spec created).1 with ⟨control, almostFull⟩ | ⟨control, almostFull⟩
    · exact backed.credited (.of_eq control almostFull) (fun holds => holds)
    · rw [FlowControl.ensureWindowLowerBound] at control
      split at control
      · exact backed.tuned control (fun _ => almostFull) (by omega)
      · exact backed.credited ⟨⟨_, Nat.le_refl _, control⟩, fun _ => almostFull⟩ (fun holds => holds)
  | maxStreamsBidi | maxStreamsUni | stopSending | resetStream | stream =>
    apply appended
    exact backed.credited (create_credited rfl created) (fun holds => holds)

theorem Backed.step {event : Event} (renewed : transit.Renewed event)
    (stepped : transit.step event = some after) : after.Backed initial := by
  cases steps_of_step stepped with
  | call direct moved => exact backed.credited (step_credited direct moved) (fun holds => holds)
  | maxStreams => exact backed.credited (.of_eq rfl rfl) (fun holds => holds)
  | create created => exact backed.create created
  | acked resolved acked =>
    exact backed.credited (ackedFrame_credited acked) (fun holds => holds.acked resolved)
  | @lost _ frame sent _ resolved lost =>
    by_cases carrier : frame = .maxData transit.conn.flowControl.maxData
    · rcases renewed (frame, sent) resolved carrier with held | renewable
      · exact backed.credited (lostFrame_credited lost) (fun _ => held)
      · subst carrier
        cases lost
        exact .inr (.inr ⟨rfl, renewable⟩)
    · exact backed.credited (lostFrame_credited lost) (fun holds => holds.lost resolved carrier)

end

/-- In a run in which a MAX_DATA frame with the limit in force is only lost when the limit can
be renewed, that limit is the initial one, or a MAX_DATA frame with it was acknowledged or is
in flight, or the next packet with room carries one with at least that limit. -/
theorem max_data_backed {config : Config} {scid : List UInt8} {localAddr peerAddr : SocketAddr}
    {addressVerified isServer : Bool} {events : List Event}
    (renewed : machine.Guarded Renewed (start config scid localAddr peerAddr addressVerified isServer) events)
    (reached : machine.run (start config scid localAddr peerAddr addressVerified isServer) events = some transit) :
    transit.conn.flowControl.maxData = config.localTransportParams.initialMaxData ∨
      transit.sent.Holds (· = .maxData transit.conn.flowControl.maxData) ∨
      transit.conn.Renews transit.conn.flowControl.maxData := by
  have backed : transit.Backed config.localTransportParams.initialMaxData :=
    machine.run_keeps_of_guarded (fun _ _ _ backed renewed stepped => Backed.step backed renewed stepped)
      (.inl rfl) renewed reached
  exact backed.imp_right (Or.imp_right fun backing => renews_of_renewable backing.1 backing.2)

/-- The limit is lost after more was consumed. -/
theorem max_data_backed_consumed : ∃ transit, machine.run (start History.smallConfig [1] ⟨[1], 1⟩ ⟨[2], 2⟩ false true)
        [.call (.stream 0 (.fromBytes (List.replicate 50 0) 0 false)), .call (.streamRecv 0 50),
          .create (.maxData 0 10) 100, .call (.stream 4 (.fromBytes (List.replicate 50 0) 0 false)),
          .call (.streamRecv 4 50), .call (.stream 8 (.fromBytes (List.replicate 20 0) 0 false)),
          .call (.streamRecv 8 20), .lost 0] = some transit ∧
      transit.conn.flowControl.maxData = 200 ∧ (transit.conn.flowControl.maxData = 100 ∨
        transit.sent.Holds (· = .maxData transit.conn.flowControl.maxData) ∨
        transit.conn.Renews transit.conn.flowControl.maxData) :=
  exists_reached_of (fun transit => transit.conn.flowControl.maxData = 200) (by decide +kernel)
    fun _ reached limit => ⟨limit, max_data_backed (by decide +kernel) reached⟩

/-- Nothing was consumed between the frame and its loss, so the limit is not sent again. -/
theorem lost_max_data_stays_lost : ∃ transit, machine.run (start History.smallConfig [1] ⟨[1], 1⟩ ⟨[2], 2⟩ false true)
        [.call (.stream 0 (.fromBytes (List.replicate 50 0) 0 false)), .call (.streamRecv 0 50),
          .create (.maxData 0 10) 100, .lost 0] = some transit ∧ ¬ (transit.conn.flowControl.maxData = 100 ∨
        transit.sent.Holds (· = .maxData transit.conn.flowControl.maxData) ∨
        transit.conn.Renews transit.conn.flowControl.maxData) := by
  refine exists_reached_of (fun transit => (transit.conn.flowControl, transit.conn.almostFull, transit.sent) =
    (⟨50, 200, 150, 100, some 0⟩, true, [(.maxData 200, .lost)])) (by decide +kernel) fun transit _ same => ?_
  obtain ⟨control, rest⟩ := Prod.mk.inj same
  obtain ⟨full, sent⟩ := Prod.mk.inj rest
  rw [control, sent]
  rintro (start | held | renews)
  · exact absurd start (by decide)
  · exact absurd held (by decide)
  · obtain ⟨max, len, _, _, packet⟩ := renews 0 0 (by rw [control]; decide)
    obtain ⟨next, sending⟩ := packet len (Nat.le_refl len)
    have nothing : transit.conn.sendMaxData 0 0 len = some (transit.conn, none) := by
      rw [sendMaxData, full, control]
      rfl
    cases nothing.symm.trans sending

end MaxData

section MaxStreams

variable {kind : Bool}

def maxStreamsFrame : Bool → Nat → Frame
  | true, max => .maxStreamsBidi max
  | false, max => .maxStreamsUni max

def maxStreamsCreation : Bool → Creation
  | true => .maxStreamsBidi
  | false => .maxStreamsUni

/-- A `MAX_STREAMS` frame with the limit or a higher one is sent as soon as it fits. -/
def Announces (conn : Connection) (kind : Bool) (limit : Nat) : Prop :=
  (conn.streams.counters kind).localMaxNext < 2 ^ 62 →
    ∃ max len, limit ≤ max ∧ (maxStreamsFrame kind max).wireLen = some len ∧ ∀ left, len ≤ left →
      ∃ next, conn.create left (maxStreamsCreation kind) = some (next, some (maxStreamsFrame kind max))

/-- The peer opened at most `limit` streams and at least those seen, and `credit` may be announced. -/
structure Counted (limit credit seen : Nat) (counters : StreamMap.Counters) : Prop where
  localMax : counters.localMax = limit
  within : counters.peerOpened ≤ limit
  opened : seen ≤ counters.peerOpened
  credits : min credit (2 ^ 64 - 1) ≤ counters.localMaxNext
  bounded : credit < 2 ^ 64 → counters.localMaxNext < 2 ^ 64

theorem counted_maintains (isServer kind : Bool) (limit credit seen : Nat) :
    StreamMap.Maintains isServer {} (fun map => Counted limit credit seen (map.counters kind)) where
  open_ := by
    intro map next id localParams peerParams locally stream counted _ handed
    rcases StreamMap.getOrCreate_spec handed with rfl | ⟨_, _, _, _, _, limited, enforced, counters⟩
    · exact counted
    obtain ⟨_, _, changes⟩ := StreamMap.enforceLimits_spec enforced
    obtain ⟨localOpened, peerOpened, same, _, grown, within, _⟩ := changes kind
    have before := counted.within
    have earlier := counted.opened
    have limit := counted.localMax
    rw [← counters] at same
    refine ⟨by rw [same]; exact limit, ?_, ?_, by rw [same]; exact counted.credits,
      by rw [same]; exact counted.bounded⟩
    · rw [same]
      dsimp only
      omega
    · rw [same]
      dsimp only
      omega
  change counted _ _ _ := counted
  prioritize _ _ counted _ := counted
  readable _ counted := counted
  writable _ counted := counted
  almostFull _ counted := counted
  blocked _ counted := counted
  flush counted _ _ := counted
  reset _ _ counted _ := counted
  stopped _ _ counted := counted
  collect := by
    intro map next id stream counted _ _ collected
    obtain ⟨_, _, counters⟩ := StreamMap.collect_credits collected
    refine ⟨by rw [counters]; exact counted.localMax, by rw [counters]; exact counted.within,
      by rw [counters]; exact counted.opened, ?_, fun small => ?_⟩
    · have before := counted.credits
      rw [counters]
      dsimp only
      split <;> omega
    · have before := counted.bounded small
      rw [counters]
      dsimp only
      split <;> omega
  peerMax _ _ counted := by
    obtain ⟨localMax, within, opened, credits, bounded⟩ := counted
    cases kind <;> exact ⟨localMax, within, opened, credits, bounded⟩

theorem counted_unlinks (kind : Bool) (limit credit seen : Nat) :
    StreamMap.Unlinks fun map => Counted limit credit seen (map.counters kind) where
  reflush counted _ _ := counted
  unflush _ counted := counted

/-- The limit is the initial one, or its frame is in flight or due. -/
def Granted (initial : Nat) (kind : Bool) (transit : Transit) : Prop :=
  let counters := transit.conn.streams.counters kind
  counters.peerOpened ≤ counters.localMax ∧ min counters.localMax (2 ^ 64 - 1) ≤ counters.localMaxNext ∧
    (counters.localMax = initial ∨ counters.localMax ≤ counters.localMaxNext ∧ counters.localMaxNext < 2 ^ 64 ∧
      (transit.sent.Holds (· = maxStreamsFrame kind counters.localMax) ∨
        transit.conn.streams.shouldUpdateMaxStreams kind = some true))

theorem shouldUpdateMaxStreams_eq (map : StreamMap) (kind : Bool) : map.shouldUpdateMaxStreams kind =
    StreamMap.shouldUpdate (map.counters kind).localMax (map.counters kind).localMaxNext
      (map.counters kind).peerOpened := by
  cases kind <;> rfl

theorem shouldUpdate_iff {limit credits opened : Nat} : StreamMap.shouldUpdate limit credits opened = some true ↔
    credits ≠ limit ∧ opened ≤ limit ∧ limit - opened < credits / 2 := by
  rw [StreamMap.shouldUpdate, subChecked]
  split
  · split <;> simp_all
  · simp_all

theorem Granted.counted {sent : Ledger Frame} (granted : transit.Granted initial kind)
    (counted : Counted (transit.conn.streams.counters kind).localMax
      (transit.conn.streams.counters kind).localMaxNext (transit.conn.streams.counters kind).peerOpened
      (conn.streams.counters kind))
    (held : transit.sent.Holds (· = maxStreamsFrame kind (transit.conn.streams.counters kind).localMax) →
      sent.Holds (· = maxStreamsFrame kind (transit.conn.streams.counters kind).localMax) ∨
        transit.conn.streams.shouldUpdateMaxStreams kind = some true) :
    Granted initial kind ⟨conn, sent⟩ := by
  obtain ⟨localMax, within, opened, credits, bounded⟩ := counted
  obtain ⟨_, behind, backing⟩ := granted
  rw [Granted]
  dsimp only
  rw [localMax]
  refine ⟨within, by omega, backing.imp_right ?_⟩
  rintro ⟨committed, small, answer⟩
  refine ⟨by omega, bounded small, ?_⟩
  have due : transit.conn.streams.shouldUpdateMaxStreams kind = some true →
      conn.streams.shouldUpdateMaxStreams kind = some true := by
    rw [shouldUpdateMaxStreams_eq, shouldUpdateMaxStreams_eq, shouldUpdate_iff, shouldUpdate_iff, localMax]
    rintro ⟨differs, _, few⟩
    exact ⟨by omega, within, by omega⟩
  rcases answer with carried | waits
  · exact (held carried).imp_right due
  · exact .inr (due waits)

variable {updated map : StreamMap} {left len : Nat} {frame : Option Frame}

theorem sendMaxStreams_spec {should : Option Bool} {made : Frame} {result : StreamMap}
    (sent : StreamMap.sendMaxStreams should made updated map left = some (result, frame)) :
    result = map ∧ frame = none ∨ result = updated ∧ frame = some made ∧ ∃ len, made.wireLen = some len := by
  obtain ⟨due, _, sent⟩ := Option.bind_eq_some_iff.mp sent
  split at sent
  · obtain ⟨len, known, sent⟩ := Option.bind_eq_some_iff.mp sent
    split at sent
    · cases sent
      exact .inr ⟨rfl, rfl, len, known⟩
    · cases sent
      exact .inl ⟨rfl, rfl⟩
  · cases sent
    exact .inl ⟨rfl, rfl⟩

theorem lt_of_varintsLen {value : Nat} (known : Frame.varintsLen [value] = some len) : value < 2 ^ 62 := by
  obtain ⟨width, small, _⟩ := Option.bind_eq_some_iff.mp known
  rw [varintLen, maxVarInt] at small
  split at small
  · omega
  split at small
  · omega
  split at small
  · omega
  split at small
  · omega
  · cases small

theorem create_counters {creation : Creation}
    (created : transit.conn.create left creation = some (conn, frame)) (kind : Bool) :
    (∀ limit credit seen, Counted limit credit seen (transit.conn.streams.counters kind) →
        Counted limit credit seen (conn.streams.counters kind)) ∨
      conn.streams.counters kind = { transit.conn.streams.counters kind with
        localMax := (transit.conn.streams.counters kind).localMaxNext } ∧
      (transit.conn.streams.counters kind).localMaxNext < 2 ^ 62 ∧
      frame = some (maxStreamsFrame kind (transit.conn.streams.counters kind).localMaxNext) := by
  have maintains := counted_maintains transit.conn.isServer kind
  cases creation with
  | maxStreamsBidi =>
    obtain ⟨⟨streams, made⟩, sent, same⟩ := Option.map_eq_some_iff.mp created
    cases same
    rcases sendMaxStreams_spec sent with ⟨rfl, rfl⟩ | ⟨rfl, rfl, len, known⟩
    · exact .inl fun _ _ _ counted => counted
    · obtain ⟨width, known, _⟩ := Option.map_eq_some_iff.mp known
      cases kind with
      | false => exact .inl fun _ _ _ counted => counted
      | true => exact .inr ⟨rfl, lt_of_varintsLen known, rfl⟩
  | maxStreamsUni =>
    obtain ⟨⟨streams, made⟩, sent, same⟩ := Option.map_eq_some_iff.mp created
    cases same
    rcases sendMaxStreams_spec sent with ⟨rfl, rfl⟩ | ⟨rfl, rfl, len, known⟩
    · exact .inl fun _ _ _ counted => counted
    · obtain ⟨width, known, _⟩ := Option.map_eq_some_iff.mp known
      cases kind with
      | false => exact .inr ⟨rfl, lt_of_varintsLen known, rfl⟩
      | true => exact .inl fun _ _ _ counted => counted
  | maxStreamData streamId now rtt minWindow =>
    exact .inl fun _ _ _ counted => sendMaxStreamData_maintains (maintains _ _ _) trivial counted created
  | maxData now rtt =>
    left
    rcases sendMaxData_spec created with ⟨rfl, _⟩ | ⟨_, _, ⟨_, rfl⟩ | ⟨_, _, rfl⟩⟩ <;>
      exact fun _ _ _ counted => counted
  | stopSending streamId =>
    left
    rcases sendStopSending_spec created with ⟨rfl, _⟩ | ⟨_, _, _, rfl⟩ <;>
      exact fun _ _ _ counted => counted
  | resetStream streamId =>
    left
    rcases sendResetStream_spec created with ⟨rfl, _⟩ | ⟨_, _, _, _, rfl⟩ <;>
      exact fun _ _ _ counted => counted
  | stream =>
    obtain ⟨⟨sender, header⟩, sending, same⟩ := Option.map_eq_some_iff.mp created
    cases same
    exact .inl fun _ _ _ counted => sendStream_maintains (maintains _ _ _)
      (counted_unlinks _ _ _ _) (fun _ => trivial) counted sending

/-- Of a lost packet the current limits are still in flight, or due. -/
def Announced (transit : Transit) : Event → Prop
  | .lost index => ∀ entry ∈ transit.sent.resolve index .lost, ∀ kind,
      entry.1 = maxStreamsFrame kind (transit.conn.streams.counters kind).localMax →
        entry.2.Holds (· = maxStreamsFrame kind (transit.conn.streams.counters kind).localMax) ∨
          transit.conn.streams.shouldUpdateMaxStreams kind = some true
  | _ => True

instance (transit : Transit) : ∀ event, Decidable (transit.Announced event)
  | .lost _ => inferInstanceAs (Decidable (∀ _ ∈ _, ∀ _, _ → _ ∨ _))
  | .call _ | .maxStreams .. | .create .. | .acked _ => .isTrue trivial

theorem counted_self (within : (map.counters kind).peerOpened ≤ (map.counters kind).localMax) :
    Counted (map.counters kind).localMax (map.counters kind).localMaxNext (map.counters kind).peerOpened
      (map.counters kind) := ⟨rfl, within, Nat.le_refl _, Nat.min_le_left _ _, fun small => small⟩

theorem Granted.create {creation : Creation} (granted : transit.Granted initial kind)
    (created : transit.conn.create left creation = some (conn, frame)) :
    Granted initial kind ⟨conn, frame.elim transit.sent transit.sent.send⟩ := by
  rcases create_counters created kind with kept | ⟨counters, small, rfl⟩
  · refine granted.counted (kept _ _ _ (counted_self granted.1)) fun holds => .inl ?_
    cases frame with
    | none => exact holds
    | some frame => exact holds.send frame
  · obtain ⟨within, behind, _⟩ := granted
    rw [Granted]
    dsimp only
    rw [counters]
    dsimp only
    exact ⟨by omega, by omega, .inr ⟨Nat.le_refl _, by omega, .inl (Ledger.holds_send rfl)⟩⟩

theorem Granted.step {event : Event} (granted : transit.Granted initial kind)
    (announced : transit.Announced event) (stepped : transit.step event = some after) : after.Granted initial kind := by
  have maintains := counted_maintains transit.conn.isServer kind (transit.conn.streams.counters kind).localMax
    (transit.conn.streams.counters kind).localMaxNext (transit.conn.streams.counters kind).peerOpened
  have counted := counted_self granted.1
  cases steps_of_step stepped with
  | call direct moved => exact granted.counted (step_maintains maintains (covers_all _ _) counted direct moved) .inl
  | maxStreams limited =>
    refine granted.counted ?_ .inl
    rw [limited]
    split
    · exact maintains.peerMax _ _ counted
    · exact maintains.peerMax _ _ counted
  | create created => exact granted.create created
  | acked resolved acked =>
    exact granted.counted (ackedFrame_maintains maintains counted (fun _ _ => ⟨trivial, trivial⟩) acked)
      fun holds => .inl (holds.acked resolved)
  | @lost _ frame sent _ resolved lost =>
    refine granted.counted (lostFrame_maintains maintains counted (fun _ _ => ⟨trivial, trivial⟩) lost) fun holds => ?_
    by_cases carrier : frame = maxStreamsFrame kind (transit.conn.streams.counters kind).localMax
    · exact announced (frame, sent) resolved kind carrier
    · exact .inl (holds.lost resolved carrier)

theorem sendMaxStreams_due {should : Option Bool} {frame : Frame}
    (due : should = some true) (length : frame.wireLen = some len) (room : len ≤ left) :
    StreamMap.sendMaxStreams should frame updated map left = some (updated, some frame) := by
  rw [StreamMap.sendMaxStreams, due]
  simp only [Option.bind_eq_bind, Option.bind_some, if_true, length, if_pos room]
  rfl

theorem announces_of_due (due : conn.streams.shouldUpdateMaxStreams kind = some true)
    (committed : (conn.streams.counters kind).localMax ≤ (conn.streams.counters kind).localMaxNext) :
    Announces conn kind (conn.streams.counters kind).localMax := by
  intro small
  obtain ⟨len, _, known, _⟩ := Octets.varintLen_exists small
  have length : (maxStreamsFrame kind (conn.streams.counters kind).localMaxNext).wireLen = some (1 + (len + 0)) := by
    cases kind with
    | false =>
      rw [maxStreamsFrame, Frame.wireLen, Frame.varintsLen, known]
      rfl
    | true =>
      rw [maxStreamsFrame, Frame.wireLen, Frame.varintsLen, known]
      rfl
  refine ⟨_, _, committed, length, fun left room => ?_⟩
  cases kind with
  | false =>
    have sent : conn.streams.sendMaxStreamsUni left =
        some (conn.streams.updateMaxStreamsUni, some (.maxStreamsUni conn.streams.maxStreamsUniNext)) :=
      sendMaxStreams_due due length room
    exact ⟨_, by rw [maxStreamsCreation, create, sent]; rfl⟩
  | true =>
    have sent : conn.streams.sendMaxStreamsBidi left =
        some (conn.streams.updateMaxStreamsBidi, some (.maxStreamsBidi conn.streams.maxStreamsBidiNext)) :=
      sendMaxStreams_due due length room
    exact ⟨_, by rw [maxStreamsCreation, create, sent]; rfl⟩

/-- In a run in which a MAX_STREAMS frame with the limit in force is only lost when an update
is due, that limit is the initial one, or a MAX_STREAMS frame with it was acknowledged or is
in flight, or the next packet with room carries one with at least that limit. -/
theorem max_streams_granted {config : Config} {scid : List UInt8} {localAddr peerAddr : SocketAddr}
    {addressVerified isServer : Bool} {events : List Event}
    (announced : machine.Guarded Announced (start config scid localAddr peerAddr addressVerified isServer) events)
    (reached : machine.run (start config scid localAddr peerAddr addressVerified isServer) events =
      some transit) (kind : Bool) :
    (transit.conn.streams.counters kind).localMax = (if kind then config.localTransportParams.initialMaxStreamsBidi
          else config.localTransportParams.initialMaxStreamsUni) ∨
      transit.sent.Holds (· = maxStreamsFrame kind (transit.conn.streams.counters kind).localMax) ∨
      Announces transit.conn kind (transit.conn.streams.counters kind).localMax := by
  have initial : (start config scid localAddr peerAddr addressVerified isServer).Granted
      (if kind then config.localTransportParams.initialMaxStreamsBidi
        else config.localTransportParams.initialMaxStreamsUni) kind := by
    cases kind with
    | false => exact ⟨Nat.zero_le _, Nat.min_le_left _ _, .inl rfl⟩
    | true => exact ⟨Nat.zero_le _, Nat.min_le_left _ _, .inl rfl⟩
  have granted := machine.run_keeps_of_guarded
    (fun _ _ _ granted announced stepped => Granted.step granted announced stepped) initial announced reached
  obtain ⟨_, _, backing⟩ := granted
  refine backing.imp_right ?_
  rintro ⟨committed, _, answer⟩
  exact answer.imp_right fun due => announces_of_due due committed

/-- The limit is lost after two more streams came and one went. -/
theorem max_streams_granted_due : ∃ transit, machine.run (start History.smallConfig [1] ⟨[1], 1⟩ ⟨[2], 2⟩ false true)
        [.call (.stream 10 (.fromBytes [1] 0 true)), .call (.streamRecv 10 1), .create .maxStreamsUni 100,
          .call (.stream 18 (.fromBytes [1] 0 true)), .call (.streamRecv 18 1), .lost 0] = some transit ∧
      (transit.conn.streams.counters false).localMax = 5 ∧ ((transit.conn.streams.counters false).localMax = 4 ∨
        transit.sent.Holds (· = maxStreamsFrame false (transit.conn.streams.counters false).localMax) ∨
        Announces transit.conn false (transit.conn.streams.counters false).localMax) :=
  exists_reached_of (fun transit => (transit.conn.streams.counters false).localMax = 5) (by decide +kernel)
    fun _ reached limit => ⟨limit, max_streams_granted (by decide +kernel) reached false⟩

/-- No stream came or went between the frame and its loss, and the limit is not sent again. -/
theorem lost_max_streams_stays_lost :
    ∃ transit, machine.run (start History.smallConfig [1] ⟨[1], 1⟩ ⟨[2], 2⟩ false true)
        [.call (.stream 10 (.fromBytes [1] 0 true)), .call (.streamRecv 10 1), .create .maxStreamsUni 100,
          .lost 0] = some transit ∧ ¬ ((transit.conn.streams.counters false).localMax = 4 ∨
        transit.sent.Holds (· = maxStreamsFrame false (transit.conn.streams.counters false).localMax) ∨
        Announces transit.conn false (transit.conn.streams.counters false).localMax) := by
  refine exists_reached_of (fun transit => ((transit.conn.streams.counters false).localMax,
    (transit.conn.streams.counters false).localMaxNext, transit.conn.streams.shouldUpdateMaxStreamsUni, transit.sent) =
      (5, 5, some false, [(.maxStreamsUni 5, .lost)])) (by decide +kernel) fun transit _ same => ?_
  obtain ⟨limit, rest⟩ := Prod.mk.inj same
  obtain ⟨limitNext, rest⟩ := Prod.mk.inj rest
  obtain ⟨idle, sent⟩ := Prod.mk.inj rest
  rw [limit, sent]
  rintro (start | held | announces)
  · exact absurd start (by decide)
  · exact absurd held (by decide)
  · obtain ⟨max, len, _, _, packet⟩ := announces (by rw [limitNext]; decide)
    obtain ⟨next, created⟩ := packet len (Nat.le_refl len)
    have nothing : transit.conn.streams.sendMaxStreamsUni len = some (transit.conn.streams, none) := by
      rw [StreamMap.sendMaxStreamsUni, StreamMap.sendMaxStreams, idle]
      rfl
    rw [maxStreamsCreation, create, nothing] at created
    cases created

end MaxStreams

end Transit

end Quiche.Connection
