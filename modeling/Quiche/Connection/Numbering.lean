import Quiche.Data.Machine
import Quiche.Recovery.Dispatch

namespace Quiche

def defaultInitialCongestionWindowPackets : Nat := 10

def minSkipCounterValue : Nat := defaultInitialCongestionWindowPackets * 2

structure PktNumManager where
  skipPn : Option Nat
  /-- Counts down to the next packet number to be skipped. -/
  skipPnCounter : Option Nat
deriving DecidableEq, Repr

namespace PktNumManager

def new : PktNumManager := ⟨none, none⟩

def shouldArmSkipCounter (manager : PktNumManager) (handshakeCompleted : Bool) : Bool :=
  manager.skipPnCounter.isNone && manager.skipPn.isNone && handshakeCompleted

/-- Only skip a new packet number once it was validated that the peer has not acknowledged the
current one. -/
def shouldSkipPn (manager : PktNumManager) (handshakeCompleted : Bool) : Bool :=
  manager.skipPnCounter.any (· == 0) && manager.skipPn.isNone && handshakeCompleted

/-- `none` is a failed assertion. -/
def setSkipPn (manager : PktNumManager) (skipPn : Option Nat) : Option PktNumManager :=
  if skipPn.isSome && !(manager.skipPn.isNone && manager.skipPnCounter == some 0) then none
  else some ⟨skipPn, none⟩

/-- `randU64Uniform` is what the random number generator yields below a bound. -/
def armSkipCounter (manager : PktNumManager) (cwnd maxDatagramSize : Nat) (randU64Uniform : Nat → Nat) :
    Option PktNumManager :=
  if maxDatagramSize = 0 then none
  else do
    let packetsPerCwnd := cwnd / maxDatagramSize
    let lower := packetsPerCwnd / 2
    let upper ← addU64 packetsPerCwnd packetsPerCwnd
    let skipRange ← addU64 (upper - lower) 1
    let least ← addU64 minSkipCounterValue lower
    let skipPnCounter ← addU64 least (randU64Uniform skipRange)
    return { manager with skipPnCounter := some skipPnCounter }

def onPacketSent (manager : PktNumManager) (cwnd maxDatagramSize : Nat) (handshakeCompleted : Bool)
    (randU64Uniform : Nat → Nat) : Option PktNumManager :=
  match manager.skipPnCounter with
  | some counter => some { manager with skipPnCounter := some (counter - 1) }
  | none =>
    if manager.shouldArmSkipCounter handshakeCompleted then
      manager.armSkipCounter cwnd maxDatagramSize randU64Uniform
    else some manager

variable {manager next : PktNumManager} {handshakeCompleted : Bool} {cwnd maxDatagramSize : Nat}
  {randU64Uniform : Nat → Nat}

theorem setSkipPn_of_should (should : manager.shouldSkipPn handshakeCompleted = true) (skipPn : Option Nat) :
    manager.setSkipPn skipPn = some ⟨skipPn, none⟩ := by
  simp only [shouldSkipPn, Bool.and_eq_true, Option.any_eq_true, beq_iff_eq] at should
  obtain ⟨⟨⟨counter, expired, rfl⟩, unskipped⟩, _⟩ := should
  rw [setSkipPn, expired, unskipped]
  simp

theorem setSkipPn_spec {skipPn : Option Nat} (called : manager.setSkipPn skipPn = some next) : next.skipPn = skipPn := by
  rw [setSkipPn] at called
  split at called
  · cases called
  · cases called
    rfl

theorem onPacketSent_skipPn
    (sent : manager.onPacketSent cwnd maxDatagramSize handshakeCompleted randU64Uniform = some next) :
    next.skipPn = manager.skipPn := by
  rw [onPacketSent] at sent
  split at sent
  · cases sent
    rfl
  · split at sent
    · rw [armSkipCounter] at sent
      split at sent
      · cases sent
      · obtain ⟨upper, _, rest⟩ := Option.bind_eq_some_iff.mp sent
        obtain ⟨skipRange, _, rest⟩ := Option.bind_eq_some_iff.mp rest
        obtain ⟨least, _, rest⟩ := Option.bind_eq_some_iff.mp rest
        obtain ⟨skipPnCounter, _, armed⟩ := Option.bind_eq_some_iff.mp rest
        cases armed
        rfl
    · cases sent
      rfl

end PktNumManager

open Data

/-- `get_largest_acked_on_epoch` -/
def Recovery.largestAckedOnEpoch (recovery : Recovery) (epoch : Epoch) : Option Nat :=
  match recovery with
  | .legacy recovery => (recovery.epochs epoch).largestAckedPacket
  | .gcongestion recovery => (recovery.epochs epoch).largestAckedPacket

/-- The part of a connection that numbers packets and takes acknowledgements of them.
`largestTxPktNum` is that of each packet number space, and `recoveries` is the recovery of each
path. -/
structure Numbering where
  nextPktNum : Nat
  pktNumManager : PktNumManager
  largestTxPktNum : Epoch → Option Nat
  handshakeCompleted : Bool
  recoveries : List Recovery

structure AckFrame where
  ranges : RangeSet
  ackDelay : Nat
  separated : Separated ranges.iter
  proper : ∀ range ∈ ranges.iter, range.1 < range.2

/-- What is known from elsewhere when a frame is processed. -/
structure Received where
  epoch : Epoch
  ackDelayExponent : Nat
  handshakeStatus : HandshakeStatus
  now : Int

/-- How the packet that `send_single` was building is recorded. -/
structure Dispatch where
  pkt : Sent
  path : Nat
  handshakeStatus : HandshakeStatus
  now : Int
  cwnd : Nat
  maxDatagramSize : Nat

section Skipped

variable {Packet Acc : Type} {pktNum : Packet → Nat} {ack : Nat → Acc → Packet → Option (Acc × Packet × Bool)}
  {ranges : List (Nat × Nat)} {wrap skipped : Nat}

theorem ackRanges_skipped (covered : Covered ranges skipped) {acc : Acc} {packets : List Packet}
    {state : Acc × List Packet} {outcome : Except Error Unit}
    (looped : ackRanges pktNum ack (some skipped) wrap ranges acc packets = some (state, outcome)) :
    outcome = .error .optimisticAckDetected := by
  induction ranges generalizing acc packets with
  | nil =>
    obtain ⟨range, member, _⟩ := covered
    cases member
  | cons range ranges ih =>
    obtain ⟨found, member, inside⟩ := covered
    rw [ackRanges] at looped
    split at looped
    · cases looped
      rfl
    · rename_i outside
      obtain ⟨⟨next, acked⟩, _, rest⟩ := Option.bind_eq_some_iff.mp looped
      rcases List.mem_cons.mp member with rfl | later
      · refine absurd ?_ outside
        simp [inside]
      · exact ih ⟨found, later, inside⟩ rest

variable {mulF64 : Nat → Rat → Nat} {ackRanges : RangeSet} {ackDelay : Nat} {epoch : Epoch}
  {handshakeStatus : HandshakeStatus} {now : Int}

variable {result : Except Error (OnAckReceivedOutcome × List Nat)}

theorem Recovery.onAckReceived_skipped {recovery next : Recovery} (covered : Covered ackRanges.iter skipped)
    (received : recovery.onAckReceived mulF64 ackRanges ackDelay epoch handshakeStatus now (some skipped) wrap =
      some (next, result)) : result = .error .optimisticAckDetected := by
  cases recovery
  all_goals
    obtain ⟨⟨_, outcome⟩, called, same⟩ := Option.map_eq_some_iff.mp received
    obtain ⟨⟨state, newlyAcked, detection⟩, detected, rest⟩ := Option.bind_eq_some_iff.mp called
    obtain ⟨largest, _, inner⟩ := Option.bind_eq_some_iff.mp detected
    obtain ⟨⟨⟨sweep, sentPackets⟩, looped⟩, ran, final⟩ := Option.bind_eq_some_iff.mp inner
    cases ackRanges_skipped covered ran
    cases final
    cases rest
    cases same
    rfl

end Skipped

namespace Numbering

def new (handshakeCompleted : Bool) (recoveries : List Recovery) : Numbering :=
  ⟨0, .new, fun _ => none, handshakeCompleted, recoveries⟩

/-- The number of the packet that `send_single` is about to build, with the one that it skips. -/
def choosePktNum (conn : Numbering) : Option (Numbering × Option Nat) :=
  if conn.pktNumManager.shouldSkipPn conn.handshakeCompleted then do
    let pktNumManager ← conn.pktNumManager.setSkipPn (some conn.nextPktNum)
    let nextPktNum ← addU64 conn.nextPktNum 1
    return ({ conn with pktNumManager, nextPktNum }, some conn.nextPktNum)
  else some (conn, none)

/-- The end of `send_single`, once the packet is encrypted. The result says whether the path is
still there, without which the call fails. -/
def recordSent (conn : Numbering) (epoch : Epoch) (dispatch : Dispatch) (randU64Uniform : Nat → Nat) :
    Option (Numbering × Bool) := do
  let pkt := { dispatch.pkt with pktNum := conn.nextPktNum }
  let nextPktNum ← addU64 conn.nextPktNum 1
  let conn := { conn with nextPktNum }
  match conn.recoveries[dispatch.path]? with
  | none => return (conn, false)
  | some recovery => do
    let largest := max ((conn.largestTxPktNum epoch).getD 0) pkt.pktNum
    let pktNumManager ← conn.pktNumManager.onPacketSent dispatch.cwnd dispatch.maxDatagramSize
      conn.handshakeCompleted randU64Uniform
    let recovery ← recovery.onPacketSent pkt epoch dispatch.handshakeStatus dispatch.now
    return (
      { conn with
        largestTxPktNum := Function.update conn.largestTxPktNum epoch (some largest)
        pktNumManager
        recoveries := conn.recoveries.set dispatch.path recovery },
      true)

def validateSkipPn (pktNumManager : PktNumManager) (largestAcked : Option Nat) : Option PktNumManager :=
  match largestAcked, pktNumManager.skipPn with
  | some largestAcked, some skipPn => if largestAcked > skipPn then pktNumManager.setSkipPn none else some pktNumManager
  | _, _ => some pktNumManager

/-- The loop over the paths in the part of `process_frame` for ACK frames. `wrap` is where the ring
buffers wrap around. -/
def ackPaths (mulF64 : Nat → Rat → Nat) (largestTxPktNum : Option Nat) (frame : AckFrame) (largestAcked ackDelay : Nat)
    (received : Received) (wrap : Nat) :
    List Recovery → PktNumManager → Option ((List Recovery × PktNumManager) × Except Error Unit)
  | [], pktNumManager => some (([], pktNumManager), .ok ())
  | recovery :: rest, pktNumManager =>
    if largestTxPktNum.any (· < largestAcked) then
      some ((recovery :: rest, pktNumManager), .error .invalidAckRange)
    else do
      let (recovery, result) ← recovery.onAckReceived mulF64 frame.ranges ackDelay received.epoch
        received.handshakeStatus received.now pktNumManager.skipPn wrap
      match result with
      | .error error => return ((recovery :: rest, pktNumManager), .error error)
      | .ok _ => do
        let pktNumManager ← validateSkipPn pktNumManager (recovery.largestAckedOnEpoch received.epoch)
        let ((rest, pktNumManager), result) ←
          ackPaths mulF64 largestTxPktNum frame largestAcked ackDelay received wrap rest pktNumManager
        return ((recovery :: rest, pktNumManager), result)

/-- `process_frame` on an ACK frame -/
def processAck (mulF64 : Nat → Rat → Nat) (conn : Numbering) (frame : AckFrame) (received : Received) (wrap : Nat) :
    Option (Numbering × Except Error Unit) :=
  if 2 ^ 64 ≤ frame.ackDelay * 2 ^ received.ackDelayExponent then some (conn, .error .invalidFrame)
  else do
    let largestAcked ← frame.ranges.last
    let ((recoveries, pktNumManager), result) ← ackPaths mulF64 (conn.largestTxPktNum received.epoch) frame largestAcked
      (frame.ackDelay * 2 ^ received.ackDelayExponent) received wrap conn.recoveries conn.pktNumManager
    return ({ conn with recoveries, pktNumManager }, result)

variable {mulF64 : Nat → Rat → Nat} {frame : AckFrame} {received : Received} {wrap : Nat} {conn next : Numbering}
  {pktNumManager after : PktNumManager} {recoveries left : List Recovery} {result : Except Error Unit}

theorem validateSkipPn_cases {largestAcked : Option Nat}
    (validated : validateSkipPn pktNumManager largestAcked = some after) :
    after.skipPn = pktNumManager.skipPn ∨ after.skipPn = none := by
  cases largestAcked with
  | none =>
    cases validated
    exact .inl rfl
  | some largestAcked =>
    cases skips : pktNumManager.skipPn with
    | none =>
      simp only [validateSkipPn, skips] at validated
      cases validated
      exact .inl skips
    | some skipPn =>
      simp only [validateSkipPn, skips] at validated
      split at validated
      · cases validated
        exact .inr rfl
      · cases validated
        exact .inl skips

theorem ackPaths_spec {largestTx : Option Nat} {largestAcked ackDelay : Nat}
    (looped : ackPaths mulF64 largestTx frame largestAcked ackDelay received wrap recoveries pktNumManager =
      some ((left, after), result)) :
    left.length = recoveries.length ∧ (after.skipPn = pktNumManager.skipPn ∨ after.skipPn = none) ∧
      (recoveries ≠ [] → result = .ok () → (∀ largest ∈ largestTx, largestAcked ≤ largest) ∧
          ∀ skipped ∈ pktNumManager.skipPn, ¬ Covered frame.ranges.iter skipped) := by
  induction recoveries generalizing pktNumManager left with
  | nil =>
    cases looped
    exact ⟨rfl, .inl rfl, fun nonempty => absurd rfl nonempty⟩
  | cons recovery rest ih =>
    rw [ackPaths] at looped
    split at looped
    · cases looped
      exact ⟨rfl, .inl rfl, fun _ accepted => by cases accepted⟩
    · rename_i known
      obtain ⟨⟨path, outcome⟩, acked, finished⟩ := Option.bind_eq_some_iff.mp looped
      cases outcome with
      | error error =>
        cases finished
        exact ⟨rfl, .inl rfl, fun _ accepted => by cases accepted⟩
      | ok outcome =>
        obtain ⟨middle, validated, more⟩ := Option.bind_eq_some_iff.mp finished
        obtain ⟨⟨⟨others, last⟩, final⟩, continued, same⟩ := Option.bind_eq_some_iff.mp more
        cases same
        obtain ⟨length, skips, _⟩ := ih continued
        refine ⟨by simp [length], ?_, fun _ _ => ⟨?_, ?_⟩⟩
        · rcases skips with kept | cleared
          · rw [kept]
            exact validateSkipPn_cases validated
          · exact .inr cleared
        · intro largest is
          cases is
          by_contra above
          exact known (by simpa using above)
        · intro skipped is covered
          cases is' : pktNumManager.skipPn with
          | none =>
            rw [is'] at is
            cases is
          | some other =>
            rw [is'] at is acked
            cases is
            cases Recovery.onAckReceived_skipped covered acked

theorem processAck_spec (occupied : conn.recoveries ≠ [])
    (processed : processAck mulF64 conn frame received wrap = some (next, result)) :
    next.nextPktNum = conn.nextPktNum ∧ next.largestTxPktNum = conn.largestTxPktNum ∧ next.recoveries ≠ [] ∧
      (next.pktNumManager.skipPn = conn.pktNumManager.skipPn ∨ next.pktNumManager.skipPn = none) ∧ (result = .ok () →
        (∀ largest ∈ conn.largestTxPktNum received.epoch, ∀ n, Covered frame.ranges.iter n → n ≤ largest) ∧
        (∃ n, Covered frame.ranges.iter n) ∧
        ∀ skipped ∈ conn.pktNumManager.skipPn, ¬ Covered frame.ranges.iter skipped) := by
  rw [processAck] at processed
  split at processed
  · cases processed
    exact ⟨rfl, rfl, occupied, .inl rfl, fun accepted => by cases accepted⟩
  · obtain ⟨largestAcked, last, rest⟩ := Option.bind_eq_some_iff.mp processed
    obtain ⟨⟨⟨recoveries, pktNumManager⟩, outcome⟩, looped, same⟩ := Option.bind_eq_some_iff.mp rest
    cases same
    obtain ⟨length, skips, accepts⟩ := ackPaths_spec looped
    refine ⟨rfl, rfl, ?_, skips, fun accepted => ?_⟩
    · show recoveries ≠ []
      rw [← List.length_pos_iff, length]
      exact List.length_pos_iff.mpr occupied
    · obtain ⟨known, unskipped⟩ := accepts occupied accepted
      refine ⟨?_, ?_, unskipped⟩
      · rintro largest is n ⟨range, member, inside⟩
        have within := RangeSet.le_last last frame.separated range member
        have bound := known largest is
        omega
      · obtain ⟨final, found, _⟩ := Option.bind_eq_some_iff.mp last
        have member := List.mem_of_getLast? found
        exact ⟨final.1, final, member, Nat.le_refl _, frame.proper final member⟩

theorem choosePktNum_spec {skips : Option Nat} (chosen : conn.choosePktNum = some (next, skips)) :
    next.largestTxPktNum = conn.largestTxPktNum ∧ next.recoveries = conn.recoveries ∧
      (skips = none ∧ next.nextPktNum = conn.nextPktNum ∧ next.pktNumManager = conn.pktNumManager ∨
        skips = some conn.nextPktNum ∧ next.nextPktNum = conn.nextPktNum + 1 ∧
          next.pktNumManager.skipPn = some conn.nextPktNum) := by
  rw [choosePktNum] at chosen
  split at chosen
  · obtain ⟨pktNumManager, skipping, rest⟩ := Option.bind_eq_some_iff.mp chosen
    obtain ⟨nextPktNum, sum, same⟩ := Option.bind_eq_some_iff.mp rest
    cases same
    exact ⟨rfl, rfl, .inr ⟨rfl, addU64_spec sum, PktNumManager.setSkipPn_spec skipping⟩⟩
  · cases chosen
    exact ⟨rfl, rfl, .inl ⟨rfl, rfl, rfl⟩⟩

theorem recordSent_spec {epoch : Epoch} {dispatch : Dispatch} {randU64Uniform : Nat → Nat} {sends : Bool}
    (recorded : conn.recordSent epoch dispatch randU64Uniform = some (next, sends)) :
    next.nextPktNum = conn.nextPktNum + 1 ∧ next.pktNumManager.skipPn = conn.pktNumManager.skipPn ∧
      (conn.recoveries ≠ [] → next.recoveries ≠ []) ∧ next.largestTxPktNum = if sends then
          Function.update conn.largestTxPktNum epoch (some (max ((conn.largestTxPktNum epoch).getD 0) conn.nextPktNum))
        else conn.largestTxPktNum := by
  obtain ⟨nextPktNum, sum, rest⟩ := Option.bind_eq_some_iff.mp recorded
  have increased := addU64_spec sum
  cases found : conn.recoveries[dispatch.path]? with
  | none =>
    simp only [found] at rest
    cases rest
    exact ⟨increased, rfl, fun occupied => occupied, rfl⟩
  | some recovery =>
    simp only [found] at rest
    obtain ⟨pktNumManager, sent, rest⟩ := Option.bind_eq_some_iff.mp rest
    obtain ⟨after, _, same⟩ := Option.bind_eq_some_iff.mp rest
    cases same
    refine ⟨increased, PktNumManager.onPacketSent_skipPn sent, fun occupied => ?_, rfl⟩
    show conn.recoveries.set dispatch.path after ≠ []
    rw [← List.length_pos_iff, List.length_set]
    exact List.length_pos_iff.mpr occupied

end Numbering

structure Numbered where
  conn : Numbering
  sent : List (Epoch × Nat)
  skipped : List Nat

namespace Numbered

inductive Op where
  | completeHandshake
  | send (epoch : Epoch) (dispatch : Option Dispatch) (randU64Uniform : Nat → Nat)
  | ack (frame : AckFrame) (received : Received) (wrap : Nat)
  /-- Whatever else happens to the paths. -/
  | recover (first : Recovery) (rest : List Recovery)

def step (mulF64 : Nat → Rat → Nat) (state : Numbered) : Op → Option Numbered
  | .completeHandshake => some { state with conn := { state.conn with handshakeCompleted := true } }
  | .send epoch dispatch randU64Uniform => do
    let (conn, skips) ← state.conn.choosePktNum
    let state := { state with conn, skipped := state.skipped ++ skips.toList }
    match dispatch with
    | none => return state
    | some dispatch => do
      let (next, sends) ← conn.recordSent epoch dispatch randU64Uniform
      let sent := if sends then state.sent ++ [(epoch, conn.nextPktNum)] else state.sent
      return { state with conn := next, sent }
  | .ack frame received wrap => do
    let (conn, _) ← state.conn.processAck mulF64 frame received wrap
    return { state with conn }
  | .recover first rest => some { state with conn := { state.conn with recoveries := first :: rest } }

def machine (mulF64 : Nat → Rat → Nat) : Machine Numbered Op := ⟨step mulF64⟩

def start (handshakeCompleted : Bool) (first : Recovery) (rest : List Recovery) : Numbered :=
  ⟨.new handshakeCompleted (first :: rest), [], []⟩

/-- Numbers go up, over all packet number spaces. -/
structure Orderly (state : Numbered) : Prop where
  occupied : state.conn.recoveries ≠ []
  increasing : (state.sent.map (·.2)).Pairwise (· < ·)
  sentBelow : ∀ entry ∈ state.sent, entry.2 < state.conn.nextPktNum
  skippedBelow : ∀ skipped ∈ state.skipped, skipped < state.conn.nextPktNum
  unskipped : ∀ entry ∈ state.sent, entry.2 ∉ state.skipped
  recorded : ∀ skipped ∈ state.conn.pktNumManager.skipPn, skipped ∈ state.skipped
  largest : ∀ epoch, ∀ largest ∈ state.conn.largestTxPktNum epoch, (epoch, largest) ∈ state.sent
  nothing : ∀ epoch, state.conn.largestTxPktNum epoch = none → ∀ entry ∈ state.sent, entry.1 ≠ epoch

variable {state next : Numbered} {mulF64 : Nat → Rat → Nat}

theorem start_orderly (handshakeCompleted : Bool) (first : Recovery) (rest : List Recovery) :
    (start handshakeCompleted first rest).Orderly where
  occupied := List.cons_ne_nil first rest
  increasing := .nil
  sentBelow _ member := absurd member List.not_mem_nil
  skippedBelow _ member := absurd member List.not_mem_nil
  unskipped _ member := absurd member List.not_mem_nil
  recorded _ is := by cases is
  largest _ _ is := by cases is
  nothing _ _ _ member := absurd member List.not_mem_nil

theorem Orderly.choose (orderly : state.Orderly) {conn : Numbering} {skips : Option Nat}
    (chosen : state.conn.choosePktNum = some (conn, skips)) :
    ({ state with conn, skipped := state.skipped ++ skips.toList } : Numbered).Orderly ∧
      (∀ skipped ∈ state.skipped ++ skips.toList, skipped < conn.nextPktNum) := by
  obtain ⟨largest, recoveries, either⟩ := Numbering.choosePktNum_spec chosen
  have occupied : conn.recoveries ≠ [] := recoveries ▸ orderly.occupied
  rcases either with ⟨rfl, same, manager⟩ | ⟨rfl, more, skipPn⟩
  · simp only [Option.toList_none, List.append_nil]
    have below : ∀ skipped ∈ state.skipped, skipped < conn.nextPktNum := same ▸ orderly.skippedBelow
    exact ⟨⟨occupied, orderly.increasing, same ▸ orderly.sentBelow, below, orderly.unskipped,
      manager ▸ orderly.recorded, largest ▸ orderly.largest, largest ▸ orderly.nothing⟩, below⟩
  · have below : ∀ skipped ∈ state.skipped ++ [state.conn.nextPktNum], skipped < conn.nextPktNum := by
      intro skipped member
      rcases List.mem_append.mp member with earlier | now
      · have := orderly.skippedBelow skipped earlier
        omega
      · cases List.mem_singleton.mp now
        omega
    refine ⟨⟨occupied, orderly.increasing, ?_, below, ?_, ?_, largest ▸ orderly.largest, largest ▸ orderly.nothing⟩,
      below⟩
    · intro entry member
      have := orderly.sentBelow entry member
      show entry.2 < conn.nextPktNum
      omega
    · intro entry member skipped
      rcases List.mem_append.mp skipped with earlier | now
      · exact orderly.unskipped entry member earlier
      · have := orderly.sentBelow entry member
        have := List.mem_singleton.mp now
        omega
    · intro skipped is
      rw [skipPn] at is
      cases is
      exact List.mem_append_right _ (List.mem_singleton.mpr rfl)

theorem Orderly.record (orderly : state.Orderly) {conn : Numbering} {epoch : Epoch} {dispatch : Dispatch}
    {randU64Uniform : Nat → Nat} {sends : Bool}
    (recorded : state.conn.recordSent epoch dispatch randU64Uniform = some (conn, sends)) : ({ state with
      conn
      sent := if sends then state.sent ++ [(epoch, state.conn.nextPktNum)] else state.sent } :
      Numbered).Orderly := by
  obtain ⟨more, skipPn, occupied, largest⟩ := Numbering.recordSent_spec recorded
  cases sends with
  | false =>
    refine ⟨occupied orderly.occupied, orderly.increasing, ?_, ?_, orderly.unskipped, skipPn ▸ orderly.recorded,
      largest ▸ orderly.largest, largest ▸ orderly.nothing⟩
    · intro entry member
      exact more ▸ Nat.lt_succ_of_lt (orderly.sentBelow entry member)
    · intro skipped member
      exact more ▸ Nat.lt_succ_of_lt (orderly.skippedBelow skipped member)
  | true =>
    simp only [if_true] at largest ⊢
    have greatest : ∀ other ∈ state.conn.largestTxPktNum epoch, other < state.conn.nextPktNum :=
      fun other is => orderly.sentBelow _ (orderly.largest epoch other is)
    have newest : max ((state.conn.largestTxPktNum epoch).getD 0) state.conn.nextPktNum = state.conn.nextPktNum := by
      cases known : state.conn.largestTxPktNum epoch with
      | none => exact Nat.max_eq_right (Nat.zero_le _)
      | some other => exact Nat.max_eq_right (Nat.le_of_lt (greatest other known))
    rw [newest] at largest
    refine ⟨occupied orderly.occupied, ?_, ?_, ?_, ?_, skipPn ▸ orderly.recorded, ?_, ?_⟩
    · show ((state.sent ++ [(epoch, state.conn.nextPktNum)]).map (·.2)).Pairwise (· < ·)
      rw [List.map_append, List.pairwise_append]
      refine ⟨orderly.increasing, List.pairwise_singleton _ _, ?_⟩
      intro first earlier second now
      obtain ⟨entry, member, rfl⟩ := List.mem_map.mp earlier
      cases List.mem_singleton.mp now
      exact orderly.sentBelow entry member
    · intro entry member
      show entry.2 < conn.nextPktNum
      rcases List.mem_append.mp member with earlier | now
      · have := orderly.sentBelow entry earlier
        omega
      · cases List.mem_singleton.mp now
        show state.conn.nextPktNum < _
        omega
    · intro skipped member
      exact more ▸ Nat.lt_succ_of_lt (orderly.skippedBelow skipped member)
    · intro entry member skipped
      rcases List.mem_append.mp member with earlier | now
      · exact orderly.unskipped entry earlier skipped
      · cases List.mem_singleton.mp now
        exact absurd (orderly.skippedBelow _ skipped) (Nat.lt_irrefl _)
    · intro other found is
      have known : Function.update state.conn.largestTxPktNum epoch (some state.conn.nextPktNum) other = some found :=
        largest ▸ is
      by_cases same : other = epoch
      · subst same
        rw [Function.update_self] at known
        cases known
        exact List.mem_append_right _ (List.mem_singleton.mpr rfl)
      · rw [Function.update_of_ne same] at known
        exact List.mem_append_left _ (orderly.largest other found known)
    · intro other is entry member
      have known : Function.update state.conn.largestTxPktNum epoch (some state.conn.nextPktNum) other = none :=
        largest ▸ is
      by_cases same : other = epoch
      · subst same
        rw [Function.update_self] at known
        cases known
      · rw [Function.update_of_ne same] at known
        rcases List.mem_append.mp member with earlier | now
        · exact orderly.nothing other known entry earlier
        · cases List.mem_singleton.mp now
          exact fun equal => same equal.symm

theorem Orderly.step (orderly : state.Orderly) {op : Op} (stepped : state.step mulF64 op = some next) : next.Orderly := by
  cases op with
  | completeHandshake =>
    cases stepped
    exact ⟨orderly.occupied, orderly.increasing, orderly.sentBelow, orderly.skippedBelow, orderly.unskipped,
      orderly.recorded, orderly.largest, orderly.nothing⟩
  | send epoch dispatch randU64Uniform =>
    obtain ⟨⟨conn, skips⟩, chosen, rest⟩ := Option.bind_eq_some_iff.mp stepped
    obtain ⟨chose, _⟩ := orderly.choose chosen
    cases dispatch with
    | none =>
      cases rest
      exact chose
    | some dispatch =>
      obtain ⟨⟨after, sends⟩, recorded, same⟩ := Option.bind_eq_some_iff.mp rest
      cases same
      exact chose.record recorded
  | ack frame received wrap =>
    obtain ⟨⟨conn, result⟩, processed, same⟩ := Option.bind_eq_some_iff.mp stepped
    cases same
    obtain ⟨number, largest, occupied, skips, _⟩ := Numbering.processAck_spec orderly.occupied processed
    refine ⟨occupied, orderly.increasing, number ▸ orderly.sentBelow, number ▸ orderly.skippedBelow, orderly.unskipped,
      ?_, largest ▸ orderly.largest, largest ▸ orderly.nothing⟩
    intro skipped is
    rcases skips with kept | cleared
    · exact orderly.recorded skipped (kept ▸ is)
    · rw [cleared] at is
      cases is
  | recover first rest =>
    cases stepped
    exact ⟨List.cons_ne_nil first rest, orderly.increasing, orderly.sentBelow, orderly.skippedBelow, orderly.unskipped,
      orderly.recorded, orderly.largest, orderly.nothing⟩

/-- What numbering promises: numbers are never used twice, a skipped one never, the assertions on skipped numbers
hold, and acknowledgements of a skipped number are refused. Accepted ones are of packets up to the largest one sent
exactly where any was sent. -/
structure Sound (mulF64 : Nat → Rat → Nat) (state : Numbered) : Prop where
  increasing : (state.sent.map (·.2)).Pairwise (· < ·)
  unskipped : ∀ entry ∈ state.sent, entry.2 ∉ state.skipped
  asserted : state.conn.pktNumManager.shouldSkipPn state.conn.handshakeCompleted = true →
    (state.conn.pktNumManager.setSkipPn (some state.conn.nextPktNum)).isSome = true
  optimistic : ∀ frame received wrap conn result,
    state.conn.processAck mulF64 frame received wrap = some (conn, result) →
      (∃ skipped ∈ state.conn.pktNumManager.skipPn, Covered frame.ranges.iter skipped) → result ≠ .ok ()
  acknowledged : ∀ frame received wrap conn,
    state.conn.processAck mulF64 frame received wrap = some (conn, .ok ()) →
      ((∀ n, Covered frame.ranges.iter n → ∃ entry ∈ state.sent, entry.1 = received.epoch ∧ n ≤ entry.2) ↔
        ∃ entry ∈ state.sent, entry.1 = received.epoch)

theorem Orderly.sound (orderly : state.Orderly) : state.Sound mulF64 where
  increasing := orderly.increasing
  unskipped := orderly.unskipped
  asserted should := by
    rw [PktNumManager.setSkipPn_of_should should]
    rfl
  optimistic := by
    rintro frame received wrap conn result processed ⟨skipped, is, covered⟩ accepted
    obtain ⟨_, _, _, _, accepts⟩ := Numbering.processAck_spec orderly.occupied processed
    exact (accepts accepted).2.2 skipped is covered
  acknowledged := by
    intro frame received wrap conn processed
    obtain ⟨_, _, _, _, accepts⟩ := Numbering.processAck_spec orderly.occupied processed
    obtain ⟨known, ⟨n, covered⟩, _⟩ := accepts rfl
    constructor
    · intro every
      obtain ⟨entry, member, same, _⟩ := every n covered
      exact ⟨entry, member, same⟩
    · rintro ⟨entry, member, same⟩ n covered
      cases largest : state.conn.largestTxPktNum received.epoch with
      | none => exact absurd same (orderly.nothing received.epoch largest entry member)
      | some found =>
        exact ⟨(received.epoch, found), orderly.largest received.epoch found largest, rfl, known found largest n covered⟩

/-- In every run packet numbers go up, and an accepted acknowledgement names no number above the largest one sent in
its space exactly where one was sent there. -/
theorem packet_numbers_sound (mulF64 : Nat → Rat → Nat) (handshakeCompleted : Bool) (first : Recovery)
    (rest : List Recovery) (ops : List Op)
    (completed : (machine mulF64).run (start handshakeCompleted first rest) ops = some state) : state.Sound mulF64 := by
  have orderly : state.Orderly := (machine mulF64).run_keeps (fun _ _ _ orderly stepped => Orderly.step orderly stepped)
      (start_orderly handshakeCompleted first rest) completed
  exact orderly.sound

def fresh (handshakeCompleted : Bool) : Numbered :=
  start handshakeCompleted (Recovery.newWithConfig true 333000000 0 false 0) []

def ackOfFirst : AckFrame where
  ranges := .inline ⟨[(0, 1)], 4⟩
  ackDelay := 0
  separated := by decide
  proper := by decide

def inInitial : Received := ⟨.initial, 3, ⟨false, false, false⟩, 1000000⟩

def answered : List Op :=
  let pkt : Sent := ⟨0, [.ping none], 0, none, none, 1200, true, true, true, false⟩
  [.send .initial (some ⟨pkt, 0, ⟨false, false, false⟩, 0, 13500, 1350⟩) id, .ack ackOfFirst inInitial 0]

theorem packet_numbers_sound_answered :
    ∃ state, (machine fun duration _ => duration).run (fresh false) answered = some state ∧
      state.sent = [(.initial, 0)] ∧ state.Sound fun duration _ => duration :=
  exists_reached_of (·.sent = [(.initial, 0)]) (by decide +kernel) fun _ completed sent =>
    ⟨sent, packet_numbers_sound (fun duration _ => duration) false _ _ answered completed⟩

/-- A server that has sent nothing accepts an acknowledgement of the packet 0. -/
theorem unsent_packet_accepted :
    ((fresh false).conn.processAck (fun duration _ => duration) ackOfFirst inInitial 0).map (·.2) = some (.ok ()) ∧
      Covered ackOfFirst.ranges.iter 0 ∧ (fresh false).sent = [] := by
  refine ⟨by decide +kernel, ⟨(0, 1), List.mem_singleton.mpr rfl, by decide⟩, rfl⟩

end Numbered

end Quiche
