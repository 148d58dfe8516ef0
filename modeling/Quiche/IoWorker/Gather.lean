import Quiche.IoWorker.Batch

namespace Quiche.IoWorker

section Loop

variable {config : WriterConfig} {conn : QuicheConnection} {gcongestion : Bool} {initial : Option ReleaseDecision}
  {now capacity size : Nat} {state final : Gathering} {outcome : Except Error Nat}

/-- The length of the packet that the turn makes of `offered` bytes. -/
def Turn.writes (turn : Turn) (offered : Nat) : Option Nat :=
  match turn.sent with
  | .packet write _ _ _ => some (write offered).length
  | .failed _ => none

variable {route : Option Route}

theorem writes_of_sent {turn : Turn} {offered : Nat} {packet : List UInt8} {info : SendInfo}
    (sent : sendOnPath turn.sent offered route = .ok (packet, info)) : turn.writes offered = some packet.length := by
  unfold sendOnPath at sent
  unfold Turn.writes
  split at sent
  · cases sent
  · cases made : turn.sent with
    | packet write fits chosen at_ =>
      rw [made] at sent
      cases sent
      rfl
    | failed error =>
      rw [made] at sent
      cases sent

theorem not_writes_of_error {turn : Turn} {offered : Nat} {error : Error} (room : offered ≠ 0)
    (unsent : sendOnPath turn.sent offered route = .error error) : turn.writes offered = none := by
  unfold sendOnPath at unsent
  rw [if_neg room] at unsent
  unfold Turn.writes
  cases made : turn.sent with
  | packet write fits chosen at_ =>
    rw [made] at unsent
    cases unsent
  | failed error => rfl

/-- The loop fails because the packets that it gathered fill the buffer. -/
def Starved (capacity : Nat) (outcome : Except Error Nat) (final : Gathering) : Prop :=
  (∃ error, outcome = .error error) ∧ 0 < final.writeState.numPkts ∧ final.writeState.bytesWritten = capacity

theorem not_starved_ok (written : Nat) : ¬ Starved capacity (.ok written) final := by
  rintro ⟨⟨error, failed⟩, _⟩
  cases failed

section

variable (regular : state.Regular capacity)

include regular

theorem starved_unsent_iff {sent : Sent} {error : Error}
    (unsent : sendOnPath sent (space capacity state) route = .error error) (same : state.Same final)
    (eq : outcome = if error = .done then .ok 0 else .error error) :
    Starved capacity outcome final ↔ 0 < state.packets.length ∧ state.writeState.bytesWritten = capacity := by
  rw [Starved, same.numPkts, same.bytesWritten, regular.counted]
  refine and_iff_right_of_imp fun ⟨_, filled⟩ => ?_
  have empty := (space_eq_zero_iff regular).mpr filled
  unfold sendOnPath at unsent
  rw [if_pos empty] at unsent
  cases unsent
  exact ⟨.bufferTooShort, eq⟩

theorem gatherLoop_cases (config : WriterConfig) (conn : QuicheConnection)
    (gcongestion : Bool) (initial : Option ReleaseDecision) (now : Nat) (turn : Turn) (turns : List Turn) :
    (∃ error outcome final,
      sendOnPath turn.sent (space capacity state) (selectPath config conn state.writeState).1 = .error error ∧
      gatherLoop config conn gcongestion initial now capacity (turn :: turns) state = some (outcome, final) ∧
      state.Same final ∧ outcome = if error = .done then .ok 0 else .error error) ∨ ∃ packet info next,
      sendOnPath turn.sent (space capacity state) (selectPath config conn state.writeState).1 = .ok (packet, info) ∧
      state.Extends next packet info.route ∧ 0 < packet.length ∧ packet.length ≤ space capacity state ∧
      ∃ more last, goesOn config gcongestion initial now capacity turn packet.length next = some (more, last) ∧
        (last = next ∨ last = learn packet.length next) ∧ (more = true → last = learn packet.length next ∧
          GoesOn config gcongestion initial now capacity turn packet.length next) ∧
        gatherLoop config conn gcongestion initial now capacity (turn :: turns) state =
          if more then gatherLoop config conn gcongestion initial now capacity turns last
          else some (.ok packet.length, last) := by
  rcases write_cases regular config conn turn.sent with
    ⟨error, outcome, next, unsent, written, same, rfl⟩ | ⟨packet, info, next, sent, written, extends_, positive, fits⟩
  · refine .inl ⟨error, _, next, unsent, ?_, same, rfl⟩
    rw [gatherLoop, written, Option.bind_some]
    by_cases done : error = .done
    · simp only [done, if_true]
    · simp only [done, if_false]
  · have sizes : ∀ size, next.segmentSize = some size → 0 < size := by
      rw [extends_.segmentSize]
      exact regular.positive
    obtain ⟨more, last, checked, shape, goes⟩ :=
      goesOn_cases sizes config gcongestion initial now capacity turn packet.length
    refine .inr ⟨packet, info, next, sent, extends_, positive, fits, more, last, checked, shape, goes, ?_⟩
    rw [gatherLoop, written, Option.bind_some]
    obtain ⟨length, eq⟩ := Nat.exists_eq_succ_of_ne_zero (Nat.ne_of_gt positive)
    simp only [eq] at checked ⊢
    rw [checked, Option.bind_some]

theorem gatherLoop_nil (config : WriterConfig) (conn : QuicheConnection)
    (gcongestion : Bool) (initial : Option ReleaseDecision) (now : Nat) :
    ∃ outcome final, gatherLoop config conn gcongestion initial now capacity [] state = some (outcome, final) ∧
      state.Same final ∧
      (Starved capacity outcome final ↔ 0 < state.packets.length ∧ state.writeState.bytesWritten = capacity) := by
  rcases write_cases regular config conn (.failed .done) with
    ⟨error, outcome, next, unsent, written, same, eq⟩ | ⟨packet, info, next, sent, _⟩
  · exact ⟨outcome, next, written, same, starved_unsent_iff regular unsent same eq⟩
  · unfold sendOnPath at sent
    split at sent
    · cases sent
    · cases sent

end

theorem gatherLoop_batch (config : WriterConfig) (conn : QuicheConnection) (gcongestion : Bool)
    (initial : Option ReleaseDecision) (now : Nat) (turns : List Turn) (state : Gathering)
    (regular : state.Regular capacity) :
    ∃ outcome final, gatherLoop config conn gcongestion initial now capacity turns state = some (outcome, final) ∧
      final.Batch capacity final.segment := by
  induction turns generalizing state with
  | nil =>
    obtain ⟨outcome, final, returned, same, _⟩ := gatherLoop_nil regular config conn gcongestion initial now
    exact ⟨outcome, final, returned, (regular.same same).batch⟩
  | cons turn turns ih =>
    rcases gatherLoop_cases regular config conn gcongestion initial now turn turns with
      ⟨error, outcome, final, _, returned, same, _⟩ |
      ⟨packet, info, next, _, extends_, positive, fits, more, last, _, shape, goes, turned⟩
    · exact ⟨outcome, final, returned, (regular.same same).batch⟩
    · rw [turned]
      cases more with
      | true =>
        obtain ⟨rfl, admitted⟩ := goes rfl
        exact ih _ (regular.goes extends_ positive fits admitted).1
      | false =>
        refine ⟨_, last, rfl, ?_⟩
        rcases shape with rfl | rfl
        · exact (regular.extended extends_ fits).2
        · exact (regular.extended extends_ fits).1

theorem gatherLoop_roomy (config : WriterConfig) (conn : QuicheConnection)
    (initial : Option ReleaseDecision) (now : Nat) (either : config.withGso = false ∨ gcongestion = false)
    (turns : List Turn) (state : Gathering) (regular : state.Regular capacity)
    (roomy : 0 < state.packets.length → state.writeState.bytesWritten ≠ capacity)
    (returned : gatherLoop config conn gcongestion initial now capacity turns state = some (outcome, final)) :
    ¬ Starved capacity outcome final := by
  have unstarved : ¬ (0 < state.packets.length ∧ state.writeState.bytesWritten = capacity) :=
    fun ⟨packetsSent, filled⟩ => roomy packetsSent filled
  induction turns generalizing state with
  | nil =>
    obtain ⟨_, _, called, _, iff⟩ := gatherLoop_nil regular config conn gcongestion initial now
    cases called.symm.trans returned
    exact fun starved => unstarved (iff.mp starved)
  | cons turn turns ih =>
    rcases gatherLoop_cases regular config conn gcongestion initial now turn turns with
      ⟨error, _, _, unsent, called, same, eq⟩ |
      ⟨packet, info, next, _, extends_, positive, fits, more, last, _, _, goes, turned⟩
    · cases called.symm.trans returned
      exact fun starved => unstarved ((starved_unsent_iff regular unsent same eq).mp starved)
    · rw [turned] at returned
      cases more with
      | false =>
        cases returned
        exact not_starved_ok _
      | true =>
        obtain ⟨rfl, admitted⟩ := goes rfl
        have apart : (learn packet.length next).writeState.bytesWritten ≠ capacity := by
          rcases either with plain | legacy
          · rw [admitted.withGso] at plain
            cases plain
          · exact Nat.ne_of_lt (admitted.tuned legacy)
        exact ih _ (regular.goes extends_ positive fits admitted).1 (fun _ => apart) returned fun ⟨_, filled⟩ =>
          apart filled

/-- The next `count` turns each write a packet of `size` bytes that joins the burst. -/
def Evenly (initial : Option ReleaseDecision) (now size count : Nat) (turns : List Turn) : Prop :=
  ∀ k < count, ∃ turn, turns[k]? = some turn ∧ turn.writes size = some size ∧ joinsBurst initial now turn = true

theorem evenly_succ {turn : Turn} {turns : List Turn} {count : Nat} :
    Evenly initial now size (count + 1) (turn :: turns) ↔
      turn.writes size = some size ∧ joinsBurst initial now turn = true ∧ Evenly initial now size count turns := by
  constructor
  · intro evenly
    obtain ⟨first, found, writes, joins⟩ := evenly 0 (Nat.succ_pos count)
    cases found
    exact ⟨writes, joins, fun k few => evenly (k + 1) (Nat.succ_lt_succ few)⟩
  · rintro ⟨writes, joins, evenly⟩ k few
    cases k with
    | zero => exact ⟨turn, rfl, writes, joins⟩
    | succ k => exact evenly k (Nat.lt_of_succ_lt_succ few)

/-- `count` more packets of the size fill the rest of the buffer. -/
structure Rest (initial : Option ReleaseDecision) (now capacity size count : Nat) (turns : List Turn)
    (state : Gathering) : Prop where
  total : state.writeState.bytesWritten + count * size = capacity
  few : state.packets.length + count < udpMaxSegmentCount
  large : 0 < count → gsoThreshold ≤ size
  evenly : Evenly initial now size count turns

theorem rest_zero (regular : state.Regular capacity) (filled : state.writeState.bytesWritten = capacity) :
    Rest initial now capacity size 0 turns state where
  total := by
    rw [Nat.zero_mul]
    exact filled
  few := regular.few
  large := fun positive => absurd positive (Nat.lt_irrefl 0)
  evenly := fun k few => absurd few (Nat.not_lt_zero k)

theorem starved_iff_rest (gso : config.withGso = true) (conn : QuicheConnection) (initial : Option ReleaseDecision)
    (now : Nat) (small : capacity < 2 ^ 64 - 1) (turns : List Turn) (state : Gathering) (regular : state.Regular capacity)
    (packetsSent : 0 < state.packets.length) (sized : state.segmentSize = some size)
    (returned : gatherLoop config conn true initial now capacity turns state = some (outcome, final)) :
    Starved capacity outcome final ↔ ∃ count, Rest initial now capacity size count turns state := by
  induction turns generalizing state with
  | nil =>
    obtain ⟨_, _, called, _, iff⟩ := gatherLoop_nil regular config conn true initial now
    cases called.symm.trans returned
    rw [iff, and_iff_right packetsSent]
    constructor
    · exact fun filled => ⟨0, rest_zero regular filled⟩
    · rintro ⟨count, total, _, _, evenly⟩
      cases count with
      | zero => simpa using total
      | succ count =>
        obtain ⟨_, found, _⟩ := evenly 0 (Nat.succ_pos count)
        cases found
  | cons turn turns ih =>
    have positive := regular.positive size sized
    have spaced : space capacity state = min (capacity - state.writeState.bytesWritten) size := by
      rw [space, sized, Option.getD_some]
    rcases gatherLoop_cases regular config conn true initial now turn turns with
      ⟨error, _, _, unsent, called, same, eq⟩ |
      ⟨packet, info, next, sent, extends_, nonempty, fits, more, last, checked, _, goes, turned⟩
    · cases called.symm.trans returned
      rw [starved_unsent_iff regular unsent same eq, and_iff_right packetsSent]
      constructor
      · exact fun filled => ⟨0, rest_zero regular filled⟩
      · rintro ⟨count, total, _, _, evenly⟩
        cases count with
        | zero => simpa using total
        | succ count =>
          have whole : space capacity state = size := by
            rw [Nat.succ_mul] at total
            omega
          have noWrites := not_writes_of_error (by omega) unsent
          rw [whole, (evenly_succ.mp evenly).1] at noWrites
          cases noWrites
    · have writes := writes_of_sent sent
      have grown := extends_.bytesWritten
      have longer : next.packets.length = state.packets.length + 1 := by
        rw [extends_.packets, List.length_append]
        rfl
      rw [turned] at returned
      cases more with
      | true =>
        obtain ⟨rfl, admitted⟩ := goes rfl
        obtain ⟨equal, large⟩ := admitted.sized size (extends_.segmentSize.trans sized)
        have whole : space capacity state = size := by omega
        rw [whole, equal] at writes
        obtain ⟨regular', learned⟩ := regular.goes extends_ nonempty fits admitted
        rw [ih _ regular' (by show 0 < next.packets.length; omega) (by rw [learned, equal]) returned]
        constructor
        · rintro ⟨count, total, few, _, evenly⟩
          have total : next.writeState.bytesWritten + count * size = capacity := total
          have few : next.packets.length + count < udpMaxSegmentCount := few
          refine ⟨count + 1, ?_, by omega, fun _ => equal ▸ large, evenly_succ.mpr ⟨writes, admitted.joins rfl, evenly⟩⟩
          rw [Nat.succ_mul]
          omega
        · rintro ⟨count, total, few, _, evenly⟩
          cases count with
          | zero => omega
          | succ count =>
            rw [Nat.succ_mul] at total
            refine ⟨count, ?_, ?_, fun _ => equal ▸ large, (evenly_succ.mp evenly).2.2⟩
            · show next.writeState.bytesWritten + count * size = capacity
              omega
            · show next.packets.length + count < udpMaxSegmentCount
              omega
      | false =>
        cases returned
        refine iff_of_false (not_starved_ok _) ?_
        rintro ⟨count, total, few, large, evenly⟩
        cases count with
        | zero => omega
        | succ count =>
          obtain ⟨even, joins, _⟩ := evenly_succ.mp evenly
          rw [Nat.succ_mul] at total
          have whole : space capacity state = size := by omega
          rw [whole] at writes
          have equal : packet.length = size := Option.some.inj (writes.symm.trans even)
          have within : next.writeState.bytesWritten ≤ capacity := by omega
          have goes : GoesOn config true initial now capacity turn packet.length next := {
            withGso := gso
            numPkts := by
              rw [extends_.numPkts, regular.counted]
              omega
            tuned := fun other => by cases other
            sized := by
              rw [extends_.segmentSize, sized]
              rintro other same
              cases same
              exact ⟨equal, equal ▸ large (Nat.succ_pos count)⟩
            joins := fun _ => joins }
          cases checked.symm.trans (goesOn_of goes (by omega))

/-- `count` more packets of the size of the first one fill the buffer, and nothing stops the loop before. -/
structure Fills (initial : Option ReleaseDecision) (now capacity size count : Nat) (turns : List Turn) : Prop where
  nonempty : 0 < capacity
  total : size + count * size = capacity
  few : 1 + count < udpMaxSegmentCount
  large : 0 < count → gsoThreshold ≤ size
  first : ∃ turn ∈ turns.head?, turn.writes capacity = some size ∧ joinsBurst initial now turn = true
  evenly : Evenly initial now size count turns.tail

theorem regular_start (capacity : Nat) (conn : QuicheConnection) (writeState : WriteState) :
    (Gathering.start conn writeState).Regular capacity where
  counted := rfl
  few := Nat.zero_lt_succ _
  front := rfl
  written := rfl
  bounded := Nat.zero_le _
  sized _ member := by cases member
  positive _ sized := by cases sized
  routed _ member := by cases member
  informed := rfl

theorem starved_iff_fills (gso : config.withGso = true) (conn : QuicheConnection) (initial : Option ReleaseDecision)
    (now : Nat) (small : capacity < 2 ^ 64 - 1) (turns : List Turn) (writeState : WriteState)
    (returned : gatherLoop config conn true initial now capacity turns (Gathering.start conn writeState) =
      some (outcome, final)) :
    Starved capacity outcome final ↔ ∃ size count, Fills initial now capacity size count turns := by
  have regular := regular_start capacity conn writeState
  have spaced : space capacity (Gathering.start conn writeState) = capacity := by
    simp [space, Gathering.start]
  cases turns with
  | nil =>
    obtain ⟨_, _, called, _, iff⟩ := gatherLoop_nil regular config conn true initial now
    cases called.symm.trans returned
    rw [iff]
    refine iff_of_false (fun filled => Nat.lt_irrefl 0 filled.1) ?_
    rintro ⟨size, count, fills⟩
    obtain ⟨turn, found, _⟩ := fills.first
    cases found
  | cons turn turns =>
    rcases gatherLoop_cases regular config conn true initial now turn turns with
      ⟨error, _, _, unsent, called, same, eq⟩ |
      ⟨packet, info, next, sent, extends_, nonempty, fits, more, last, checked, _, goes, turned⟩
    · cases called.symm.trans returned
      rw [starved_unsent_iff regular unsent same eq]
      refine iff_of_false (fun filled => Nat.lt_irrefl 0 filled.1) ?_
      rintro ⟨size, count, fills⟩
      obtain ⟨first, found, writes, _⟩ := fills.first
      cases found
      have noWrites := not_writes_of_error (by rw [spaced]; exact Nat.ne_of_gt fills.nonempty) unsent
      rw [spaced, writes] at noWrites
      cases noWrites
    · have writes := writes_of_sent sent
      rw [spaced] at writes fits
      have grown : next.writeState.bytesWritten = packet.length := by
        rw [extends_.bytesWritten]
        exact Nat.zero_add _
      have alone : next.packets.length = 1 := by
        rw [extends_.packets]
        rfl
      rw [turned] at returned
      cases more with
      | true =>
        obtain ⟨rfl, admitted⟩ := goes rfl
        obtain ⟨regular', learned⟩ := regular.goes extends_ nonempty (by rw [spaced]; exact fits) admitted
        rw [starved_iff_rest gso conn initial now small turns _ regular' (by show 0 < next.packets.length; omega) learned
          returned]
        constructor
        · rintro ⟨count, total, few, large, evenly⟩
          have total : next.writeState.bytesWritten + count * packet.length = capacity := total
          have few : next.packets.length + count < udpMaxSegmentCount := few
          exact ⟨packet.length, count, by omega, by omega, by omega, large,
            ⟨turn, rfl, writes, admitted.joins rfl⟩, evenly⟩
        · rintro ⟨size, count, fills⟩
          obtain ⟨first, found, even, _⟩ := fills.first
          cases found
          cases writes.symm.trans even
          refine ⟨count, ?_, ?_, fills.large, fills.evenly⟩
          · show next.writeState.bytesWritten + count * packet.length = capacity
            rw [grown]
            exact fills.total
          · show next.packets.length + count < udpMaxSegmentCount
            rw [alone]
            exact fills.few
      | false =>
        cases returned
        refine iff_of_false (not_starved_ok _) ?_
        rintro ⟨size, count, fills⟩
        obtain ⟨first, found, even, joins⟩ := fills.first
        cases found
        have few := fills.few
        have unsized : next.segmentSize = none := extends_.segmentSize
        have goes : GoesOn config true initial now capacity turn packet.length next := {
          withGso := gso
          numPkts := by
            rw [extends_.numPkts, regular.counted]
            show 0 + 1 ≠ udpMaxSegmentCount
            decide
          tuned := fun other => by cases other
          sized := by
            rw [unsized]
            rintro _ ⟨⟩
          joins := fun _ => joins }
        cases checked.symm.trans (goesOn_of goes (by omega))

end Loop

def capacityOf (sendBufLen : Nat) : Nat := min udpMaxGsoPacketSize sendBufLen

theorem capacityOf_lt (sendBufLen : Nat) : capacityOf sendBufLen < 2 ^ 64 - 1 :=
  Nat.lt_of_le_of_lt (Nat.min_le_left _ _) (by decide)

/-- Packets of one size fill the buffer, and with gcongestion the loop does not see it. -/
structure Overruns (config : WriterConfig) (conn : QuicheConnection) (now sendBufLen : Nat) (turns : List Turn) :
    Prop where
  withGso : config.withGso = true
  gcongestion : gcongestionEnabled config conn = true
  soon : postponed config conn now = false
  fills : ∃ size count, Fills (initialReleaseDecision config conn) now (capacityOf sendBufLen) size count turns

theorem starved_iff_overruns (config : WriterConfig) (conn : QuicheConnection) (now sendBufLen : Nat) (turns : List Turn)
    (writeState : WriteState) {outcome : Except Error Nat} {final : Gathering} (soon : postponed config conn now = false)
    (called : gatherLoop config conn (gcongestionEnabled config conn) (initialReleaseDecision config conn) now
      (capacityOf sendBufLen) turns (Gathering.start conn writeState) = some (outcome, final)) :
    Starved (capacityOf sendBufLen) outcome final ↔ Overruns config conn now sendBufLen turns := by
  have regular := regular_start (capacityOf sendBufLen) conn writeState
  have fresh : 0 < (Gathering.start conn writeState).packets.length →
      (Gathering.start conn writeState).writeState.bytesWritten ≠ capacityOf sendBufLen :=
    fun packetsSent => absurd packetsSent (Nat.lt_irrefl 0)
  cases gso : config.withGso with
  | false =>
    refine iff_of_false (gatherLoop_roomy config conn _ now (.inl gso) turns _ regular fresh called) fun overruns => ?_
    cases gso.symm.trans overruns.withGso
  | true =>
    cases gcongestion : gcongestionEnabled config conn with
    | false =>
      refine iff_of_false (gatherLoop_roomy config conn _ now (.inr gcongestion) turns _ regular fresh called)
        fun overruns => ?_
      cases gcongestion.symm.trans overruns.gcongestion
    | true =>
      rw [gcongestion] at called
      rw [starved_iff_fills gso conn _ now (capacityOf_lt sendBufLen) turns writeState called]
      exact ⟨fun fills => ⟨gso, gcongestion, soon, fills⟩, fun overruns => overruns.fills⟩

theorem unstarved_iff {capacity size : Nat} {outcome : Except Error Nat} {final : Gathering}
    (batch : final.Batch capacity size) : (∀ error, outcome = .error error →
      final.writeState.numPkts = 0 ∨ final.writeState.bytesWritten < capacity) ↔ ¬ Starved capacity outcome final := by
  have within : final.writeState.bytesWritten ≤ capacity := batch.written ▸ batch.bounded
  constructor
  · rintro calm ⟨⟨error, failed⟩, packetsSent, filled⟩
    rcases calm error failed with noWrites | below
    · omega
    · omega
  · intro unstarved error failed
    by_contra neither
    obtain ⟨packetsSent, filled⟩ := not_or.mp neither
    exact unstarved ⟨⟨error, failed⟩, Nat.pos_of_ne_zero packetsSent, by omega⟩

theorem gso_batch_sound (config : WriterConfig) (conn : QuicheConnection) (scale : Nat → Nat) (now sendBufLen : Nat)
    (turns : List Turn) (writeState : WriteState) :
    ∃ outcome final, gatherDataFromQuicheConn config conn scale now sendBufLen turns writeState = some (outcome, final) ∧
      final.Batch (capacityOf sendBufLen) final.writeState.segmentSize ∧ ((∀ error, outcome = .error error →
          final.writeState.numPkts = 0 ∨ final.writeState.bytesWritten < capacityOf sendBufLen) ↔
        ¬ Overruns config conn now sendBufLen turns) := by
  cases soon : postponed config conn now with
  | true =>
    unfold gatherDataFromQuicheConn
    simp only [soon, if_true]
    refine ⟨_, _, rfl, ⟨rfl, Nat.zero_le _, rfl, rfl, Nat.zero_le _, nofun, nofun, nofun⟩, ?_⟩
    refine iff_of_true (fun _ failed => by cases failed) fun overruns => ?_
    cases soon.symm.trans overruns.soon
  | false =>
    obtain ⟨outcome, final, called, batch⟩ := gatherLoop_batch config conn (gcongestionEnabled config conn)
      (initialReleaseDecision config conn) now turns _ (regular_start (capacityOf sendBufLen) conn writeState)
    have starved := starved_iff_overruns config conn now sendBufLen turns writeState soon called
    have batched : ∀ other : WriteState, other.numPkts = final.writeState.numPkts →
        other.bytesWritten = final.writeState.bytesWritten → other.selectedPath = final.writeState.selectedPath →
        ({ final with writeState := other } : Gathering).Batch (capacityOf sendBufLen) final.segment := by
      intro other numPkts bytesWritten selectedPath
      exact ⟨numPkts.trans batch.counted, batch.few, batch.front, bytesWritten.trans batch.written, batch.bounded,
        batch.even, batch.last, fun packet member => selectedPath.trans (batch.routed packet member)⟩
    unfold gatherDataFromQuicheConn
    rw [soon]
    unfold capacityOf at called
    simp only [Bool.false_eq_true, if_false, called, Option.map_some]
    by_cases late : (!gcongestionEnabled config conn &&
        (txTime config conn now final.sendInfo).any (· - now > defaultMaxIntoFuture)) = true
    · simp only [late, if_true]
      refine ⟨_, _, rfl, batched _ rfl rfl rfl, ?_⟩
      refine iff_of_true (fun _ failed => by cases failed) fun overruns => ?_
      rw [overruns.gcongestion] at late
      cases late
    · simp only [late]
      refine ⟨_, _, rfl, batched _ rfl rfl rfl, ?_⟩
      rw [← starved]
      exact unstarved_iff (batched _ rfl rfl rfl)

section Example

/-- Packets as long as they may be, up to `size` bytes. -/
def upTo (size : Nat) (positive : 0 < size) (route : Route) : Sent :=
  .packet (fun space => List.replicate (min size space) 0)
    (fun _ room => by
      rw [List.length_replicate]
      exact ⟨Nat.lt_min.mpr ⟨positive, room⟩, Nat.min_le_right _ _⟩) route 0

/-- The worker has a second packet of the same size to send, and no room for a third. -/
theorem full_buffer_fatal : (gatherDataFromQuicheConn ⟨⟨[127, 0, 0, 1], 4433⟩, true, false, true⟩
      ⟨none, none, 0, false, true, false, none, []⟩ id 0 2400
      (List.replicate 3 ⟨upTo 1200 (by decide) (⟨[127, 0, 0, 1], 4433⟩, ⟨[127, 0, 0, 1], 999⟩), 0, none⟩)
      ⟨true, 0, 0, 0, none, true, none, none, []⟩).map (fun (outcome, final) =>
        (outcome.toOption, final.writeState.numPkts, final.writeState.bytesWritten, final.localError)) =
      some (none, 2, 2400, some internalError) := by
  decide +kernel

end Example

end Quiche.IoWorker
