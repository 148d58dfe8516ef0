import Quiche.Data.Machine
import Quiche.Recovery.Dispatch

namespace Quiche.Recovery

open Data

/-- Loss recovery next to what was sent: `books` holds the packets of each packet number space,
and `archive` those that were sent before the space was discarded. `queued` collects the frames
that acknowledgements added to `acked_frames`, and loss detection to `lost_frames`. -/
structure History where
  recovery : Recovery
  books : Epoch → Book
  archive : Epoch → Book
  queued : Epoch → Fate → List Frame

inductive Op where
  | packetSent (pkt : Sent) (epoch : Epoch) (handshakeStatus : HandshakeStatus) (now : Int)
  | ackReceived (ranges : RangeSet) (ackDelay : Nat) (epoch : Epoch) (handshakeStatus : HandshakeStatus) (now : Int)
      (skipPn : Option Nat) (wrap : Nat)
  | lossDetectionTimeout (handshakeStatus : HandshakeStatus) (now : Int)
  | pathChange (epoch : Epoch) (now : Int)
  | pktNumSpaceDiscarded (epoch : Epoch) (handshakeStatus : HandshakeStatus) (now : Int)
  | getAckedFrames (epoch : Epoch)
  | getLostFrames (epoch : Epoch)
  | pingSent (epoch : Epoch)

namespace History

def added (old new : Recovery) (epoch : Epoch) (fate : Fate) : List Frame :=
  (new.frames epoch fate).drop (old.frames epoch fate).length

def advance (history : History) (recovery : Recovery) (epoch : Epoch) (book : Book) : History where
  recovery
  books := Function.update history.books epoch book
  archive := history.archive
  queued epoch fate := history.queued epoch fate ++ added history.recovery recovery epoch fate

def packets (history : History) (epoch : Epoch) : Book := history.archive epoch ++ history.books epoch

def step (mulF64 : Nat → Rat → Nat) (history : History) : Op → Option History
  | .packetSent pkt epoch handshakeStatus now => do
    let recovery ← history.recovery.onPacketSent pkt epoch handshakeStatus now
    return history.advance recovery epoch ((history.books epoch).send pkt)
  | .ackReceived ranges ackDelay epoch handshakeStatus now skipPn wrap => do
    let (recovery, result) ←
      history.recovery.onAckReceived mulF64 ranges ackDelay epoch handshakeStatus now skipPn wrap
    match result with
    | .error _ => none
    | .ok (_, lost) =>
      return history.advance recovery epoch (((history.books epoch).acknowledge ranges.iter).lose lost)
  | .lossDetectionTimeout handshakeStatus now => do
    let (recovery, _, lost) ← history.recovery.onLossDetectionTimeout mulF64 handshakeStatus now
    let (time, epoch) := history.recovery.lossTimeAndSpace
    if time.isSome then return history.advance recovery epoch ((history.books epoch).lose lost)
    else return { history with recovery }
  | .pathChange epoch now => do
    let (recovery, lost) ← history.recovery.onPathChange mulF64 epoch now
    return history.advance recovery epoch ((history.books epoch).lose lost)
  | .pktNumSpaceDiscarded epoch handshakeStatus now => some { history with
      recovery := history.recovery.onPktNumSpaceDiscarded epoch handshakeStatus now
      books := Function.update history.books epoch []
      archive := Function.update history.archive epoch (history.archive epoch ++ history.books epoch) }
  | .getAckedFrames epoch => some { history with recovery := history.recovery.getAckedFrames epoch }
  | .getLostFrames epoch => some { history with recovery := history.recovery.getLostFrames epoch }
  | .pingSent epoch => some { history with recovery := history.recovery.pingSent epoch }

def machine (mulF64 : Nat → Rat → Nat) : Machine History Op := ⟨step mulF64⟩

def start (recovery : Recovery) : History := ⟨recovery, fun _ => [], fun _ => [], fun _ _ => []⟩

/-- Packet numbers increase. The ranges of an acknowledgement are those of a `RangeSet`, not
empty, and do not hold the number that was skipped: else the call returns an error. -/
def Admits (history : History) : Op → Prop
  | .packetSent pkt epoch _ _ =>
    pkt.Fresh ∧ ∀ entry ∈ history.packets epoch, entry.1.pktNum < pkt.pktNum
  | .ackReceived ranges _ _ _ _ skipPn _ =>
    (ranges.last.isSome = true ∧ Separated ranges.iter) ∧ ∀ skipped ∈ skipPn, ¬ Covered ranges.iter skipped
  | _ => True

instance (history : History) (op : Op) : Decidable (history.Admits op) := by
  rcases op with ⟨⟩
  case packetSent => exact inferInstanceAs (Decidable (_ ∧ _))
  case ackReceived ranges _ _ _ _ skipPn _ =>
    exact inferInstanceAs (Decidable ((ranges.last.isSome = true ∧ Separated ranges.iter) ∧ ∀ skipped ∈ skipPn, _))
  all_goals exact .isTrue trivial

/-- The recovery agrees with the books, and each resolved packet has had its frames queued. -/
structure Accounted (history : History) : Prop where
  follows : history.recovery.view.Follows history.books 0
  queued : ∀ epoch fate, fate ≠ .inFlight →
    (history.queued epoch fate).Perm (((history.packets epoch).withFate fate).flatMap Sent.frames)

variable {history : History} {mulF64 : Nat → Rat → Nat}

variable {recovery : Recovery}

theorem start_accounted (follows : recovery.view.Follows (fun _ => []) 0) : (start recovery).Accounted :=
  ⟨follows, fun _ _ _ => .refl _⟩

theorem Accounted.advance (accounted : history.Accounted) {epoch : Epoch} {book : Book}
    (advances : history.recovery.view.Advances recovery.view history.books (Function.update history.books epoch book) 0) :
    (history.advance recovery epoch book).Accounted := by
  refine ⟨advances.follows, fun epoch fate resolves => ?_⟩
  obtain ⟨newly, frames, met, appended, order⟩ := (advances.moves epoch).queued fate resolves
  have more : added history.recovery recovery epoch fate = frames := by
    rw [added, frames_eq, frames_eq, appended, List.drop_left]
  show (history.queued epoch fate ++ added history.recovery recovery epoch fate).Perm _
  rw [more, packets, Ledger.withFate_append, List.flatMap_append]
  refine ((accounted.queued epoch fate resolves).append order).trans ?_
  rw [packets, Ledger.withFate_append, List.flatMap_append, List.append_assoc, ← List.flatMap_append]
  exact (met.flatMap_right _).symm.append_left _

theorem step_accounted (accounted : history.Accounted) {op : Op} (admits : history.Admits op) :
    ∃ next, history.step mulF64 op = some next ∧ next.Accounted := by
  have follows := accounted.follows
  cases op with
  | packetSent pkt epoch handshakeStatus now =>
    obtain ⟨fresh, increases⟩ := admits
    obtain ⟨recovery, sent, advances⟩ := onPacketSent_spec follows fresh
      (fun entry member => increases entry (List.mem_append_right _ member)) handshakeStatus now
    refine ⟨_, ?_, accounted.advance advances⟩
    rw [step, sent]
    rfl
  | ackReceived ranges ackDelay epoch handshakeStatus now skipPn wrap =>
    obtain ⟨recovery, outcome, lost, received, acknowledges⟩ :=
      onAckReceived_spec follows mulF64 admits ackDelay epoch handshakeStatus now wrap
    refine ⟨_, ?_, accounted.advance acknowledges.advances⟩
    rw [step, received]
    rfl
  | lossDetectionTimeout handshakeStatus now =>
    by_cases pends : history.recovery.lossTimeAndSpace.1.isSome = true
    · obtain ⟨recovery, outcome, lost, expired, advances⟩ :=
        onLossDetectionTimeout_lost follows mulF64 handshakeStatus now pends
      refine ⟨_, ?_, accounted.advance advances⟩
      rw [step, expired]
      exact if_pos pends
    · obtain ⟨recovery, outcome, epoch, expired, probes⟩ :=
        onLossDetectionTimeout_probes follows mulF64 handshakeStatus now pends
      refine ⟨{ history with recovery }, ?_, probes.follows, accounted.queued⟩
      rw [step, expired]
      exact if_neg pends
  | pathChange epoch now =>
    obtain ⟨recovery, lost, changed, advances⟩ := onPathChange_spec follows mulF64 epoch now
    refine ⟨_, ?_, accounted.advance advances⟩
    rw [step, changed]
    rfl
  | pktNumSpaceDiscarded epoch handshakeStatus now =>
    refine ⟨_, rfl, onPktNumSpaceDiscarded_spec follows epoch handshakeStatus now, fun other fate resolves => ?_⟩
    have before := accounted.queued other fate resolves
    by_cases same : other = epoch
    · subst same
      simp only [packets, Function.update_self, List.append_nil]
      exact before
    · simp only [packets, Function.update_of_ne same]
      exact before
  | getAckedFrames epoch => exact ⟨_, rfl, getAckedFrames_follows follows epoch, accounted.queued⟩
  | getLostFrames epoch => exact ⟨_, rfl, getLostFrames_follows follows epoch, accounted.queued⟩
  | pingSent epoch => exact ⟨_, rfl, pingSent_follows follows epoch, accounted.queued⟩

theorem run_accounted (follows : recovery.view.Follows (fun _ => []) 0) {ops : List Op}
    (guarded : (machine mulF64).Guarded Admits (start recovery) ops) :
    ∃ history, (machine mulF64).run (start recovery) ops = some history ∧ history.Accounted :=
  (machine mulF64).run_total_of_guarded (fun _ _ accounted admits => step_accounted accounted admits)
    (start_accounted follows) guarded

/-- `bytes_in_flight` is the sum of the sizes of the packets that are in flight and not
resolved, and each space counts them. No counter underflows, and no subtraction saturates. -/
theorem bytes_in_flight_exact (mulF64 : Nat → Rat → Nat) (gcongestionEnabled : Bool) (initialRtt maxAckDelay : Nat)
    (enableRelaxedLossThreshold : Bool) (now : Int) {ops : List Op} (guarded : (machine mulF64).Guarded Admits
      (start (newWithConfig gcongestionEnabled initialRtt maxAckDelay enableRelaxedLossThreshold now)) ops) :
    ∃ history, (machine mulF64).run
        (start (newWithConfig gcongestionEnabled initialRtt maxAckDelay enableRelaxedLossThreshold now)) ops =
          some history ∧ history.recovery.bytesInFlight.bytesInFlight = Book.total history.books ∧
      history.recovery.bytesInFlight.saturated = false ∧
      ∀ epoch, history.recovery.inFlightCount epoch = (history.books epoch).count := by
  obtain ⟨history, returned, accounted⟩ := run_accounted
    (newWithConfig_follows gcongestionEnabled initialRtt maxAckDelay enableRelaxedLossThreshold now) guarded
  refine ⟨history, returned, ?_, ?_, inFlightCount_eq accounted.follows⟩
  · rw [bytesInFlight_eq]
    exact accounted.follows.bytes.counted
  · rw [bytesInFlight_eq]
    exact accounted.follows.bytes.unsaturated

def acknowledged : List Op :=
  let status : HandshakeStatus := ⟨true, true, true⟩
  let sent (pktNum : Nat) : Sent := ⟨pktNum, [.ping none], 0, none, none, 1200, true, true, true, false⟩
  [.packetSent (sent 0) .application status 0, .packetSent (sent 1) .application status 1,
    .ackReceived (.inline ⟨[(1, 2)], 4⟩) 0 .application status 1000000 none 0]

theorem bytes_in_flight_exact_acknowledged :
    ∃ history, (machine fun duration _ => duration).run (start (newWithConfig true 333000000 0 false 0)) acknowledged =
        some history ∧ history.recovery.bytesInFlight.bytesInFlight = Book.total history.books := by
  obtain ⟨history, returned, bytes, _⟩ :=
    bytes_in_flight_exact (fun duration _ => duration) true 333000000 0 false 0
      (show (machine _).Guarded Admits _ acknowledged by decide +kernel)
  exact ⟨history, returned, bytes⟩

section Once

def sentIn (epoch : Epoch) : Op → List Sent
  | .packetSent pkt space _ _ => if space = epoch then [pkt] else []
  | _ => []

theorem packets_advance (history : History) (recovery : Recovery) {epoch : Epoch} {book : Book} {more : List Sent}
    (items : book.map (·.1) = (history.books epoch).map (·.1) ++ more) (other : Epoch) :
    ((history.advance recovery epoch book).packets other).map (·.1) =
      (history.packets other).map (·.1) ++ if epoch = other then more else [] := by
  simp only [packets, advance, List.map_append, List.append_assoc]
  by_cases same : epoch = other
  · subst same
    rw [Function.update_self, items, if_pos rfl]
  · rw [Function.update_of_ne (Ne.symm same), if_neg same, List.append_nil]

theorem packets_settle (history : History) (recovery : Recovery) {epoch : Epoch} {book : Book}
    (items : book.map (·.1) = (history.books epoch).map (·.1)) (other : Epoch) :
    ((history.advance recovery epoch book).packets other).map (·.1) = (history.packets other).map (·.1) := by
  rw [packets_advance history recovery (items.trans (List.append_nil _).symm), ite_self, List.append_nil]

theorem step_packets {op : Op} {next : History} (stepped : history.step mulF64 op = some next) (epoch : Epoch) :
    (next.packets epoch).map (·.1) = (history.packets epoch).map (·.1) ++ sentIn epoch op := by
  cases op with
  | packetSent pkt space handshakeStatus now =>
    obtain ⟨recovery, _, stepped⟩ := Option.bind_eq_some_iff.mp stepped
    cases stepped
    exact packets_advance history recovery List.map_append epoch
  | ackReceived ranges ackDelay space handshakeStatus now skipPn wrap =>
    obtain ⟨⟨recovery, result⟩, _, stepped⟩ := Option.bind_eq_some_iff.mp stepped
    show _ = _ ++ []
    rw [List.append_nil]
    cases result with
    | error => cases stepped
    | ok outcome =>
      cases stepped
      refine packets_settle history recovery ?_ epoch
      rw [Book.lose, Ledger.settle_items, Book.acknowledge, Ledger.settle_items]
  | lossDetectionTimeout handshakeStatus now =>
    obtain ⟨⟨recovery, outcome, lost⟩, _, stepped⟩ := Option.bind_eq_some_iff.mp stepped
    show _ = _ ++ []
    rw [List.append_nil]
    dsimp only at stepped
    split at stepped
    · cases stepped
      exact packets_settle history recovery (Ledger.settle_items ..) epoch
    · cases stepped
      rfl
  | pathChange space now =>
    obtain ⟨⟨recovery, lost⟩, _, stepped⟩ := Option.bind_eq_some_iff.mp stepped
    cases stepped
    show _ = _ ++ []
    rw [List.append_nil]
    exact packets_settle history recovery (Ledger.settle_items ..) epoch
  | pktNumSpaceDiscarded space handshakeStatus now =>
    cases stepped
    show _ = _ ++ []
    rw [List.append_nil]
    by_cases same : epoch = space
    · subst same
      simp only [packets, Function.update_self, List.append_nil]
    · simp only [packets, Function.update_of_ne same]
  | getAckedFrames space =>
    cases stepped
    exact (List.append_nil _).symm
  | getLostFrames space =>
    cases stepped
    exact (List.append_nil _).symm
  | pingSent space =>
    cases stepped
    exact (List.append_nil _).symm

theorem run_packets {ops : List Op} {final : History} (returned : (machine mulF64).run history ops = some final)
    (epoch : Epoch) :
    (final.packets epoch).map (·.1) = (history.packets epoch).map (·.1) ++ ops.flatMap (sentIn epoch) := by
  induction ops generalizing history with
  | nil =>
    cases returned
    exact (List.append_nil _).symm
  | cons op ops ih =>
    obtain ⟨next, stepped, completed⟩ := Option.bind_eq_some_iff.mp returned
    rw [ih completed, step_packets stepped, List.flatMap_cons, List.append_assoc]

/-- The packets that were sent are those of the books, once each. The frames of the ones that
were acknowledged were added to `acked_frames`, and those of the lost ones to `lost_frames`. The
unresolved ones are still in `sent_packets`; those in the ranges of an acknowledgement are newly
acknowledged, and a probe repeats only their frames. -/
theorem frames_queued_once (mulF64 : Nat → Rat → Nat) (gcongestionEnabled : Bool) (initialRtt maxAckDelay : Nat)
    (enableRelaxedLossThreshold : Bool) (now : Int) {ops : List Op} (guarded : (machine mulF64).Guarded Admits
      (start (newWithConfig gcongestionEnabled initialRtt maxAckDelay enableRelaxedLossThreshold now)) ops) :
    ∃ history, (machine mulF64).run
        (start (newWithConfig gcongestionEnabled initialRtt maxAckDelay enableRelaxedLossThreshold now)) ops =
          some history ∧
      (∀ epoch, (history.packets epoch).map (·.1) = ops.flatMap (sentIn epoch)) ∧ (∀ epoch fate, fate ≠ .inFlight →
        (history.queued epoch fate).Perm (((history.packets epoch).withFate fate).flatMap Sent.frames)) ∧
      (∀ epoch, history.recovery.unresolved epoch = (history.books epoch).unresolved) ∧
      (∀ ranges ackDelay epoch handshakeStatus now skipPn wrap,
        history.Admits (.ackReceived ranges ackDelay epoch handshakeStatus now skipPn wrap) →
        ∃ next, history.step mulF64 (.ackReceived ranges ackDelay epoch handshakeStatus now skipPn wrap) = some next ∧
          ∀ number, number ∈ next.recovery.newlyAcked ↔
            Covered ranges.iter number ∧ ∃ sent ∈ (history.books epoch).unresolved, sent.pktNum = number) ∧
      (∀ handshakeStatus now, history.recovery.lossTimeAndSpace.1 = none →
        ∃ next, history.step mulF64 (.lossDetectionTimeout handshakeStatus now) = some next ∧
          ∀ epoch, next.recovery.frames epoch .acked = history.recovery.frames epoch .acked ∧
            ∃ repeated, next.recovery.frames epoch .lost = history.recovery.frames epoch .lost ++ repeated ∧
              ∀ frame ∈ repeated, ∃ sent ∈ (history.books epoch).unresolved,
                sent.hasData = true ∧ frame ∈ sent.frames) := by
  obtain ⟨history, returned, accounted⟩ := run_accounted
    (newWithConfig_follows gcongestionEnabled initialRtt maxAckDelay enableRelaxedLossThreshold now) guarded
  refine ⟨history, returned, run_packets returned, accounted.queued, unresolved_eq accounted.follows, ?_, ?_⟩
  · intro ranges ackDelay epoch handshakeStatus now skipPn wrap admits
    obtain ⟨recovery, outcome, lost, received, acknowledges⟩ :=
      onAckReceived_spec accounted.follows mulF64 admits ackDelay epoch handshakeStatus now wrap
    refine ⟨history.advance recovery epoch (((history.books epoch).acknowledge ranges.iter).lose lost), ?_,
      acknowledges.numbers⟩
    rw [step, received]
    rfl
  · intro handshakeStatus now nothing
    have pends : ¬ history.recovery.lossTimeAndSpace.1.isSome = true := by
      rw [nothing]
      exact Bool.false_ne_true
    obtain ⟨recovery, outcome, space, expired, probes⟩ :=
      onLossDetectionTimeout_probes accounted.follows mulF64 handshakeStatus now pends
    refine ⟨{ history with recovery }, ?_, fun epoch => ?_⟩
    · rw [step, expired]
      exact if_neg pends
    · simp only [frames_eq]
      by_cases same : epoch = space
      · subst same
        exact ⟨probes.acked, probes.lost⟩
      · rw [probes.others epoch same]
        exact ⟨rfl, [], (List.append_nil _).symm, nofun⟩

theorem frames_queued_once_acknowledged :
    ∃ history, (machine fun duration _ => duration).run (start (newWithConfig false 333000000 0 false 0)) acknowledged =
        some history ∧ history.recovery.unresolved .application = (history.books .application).unresolved := by
  have admitted : (machine fun duration _ => duration).Guarded Admits
      (start (newWithConfig false 333000000 0 false 0)) acknowledged := by decide +kernel
  obtain ⟨history, returned, _, _, kept, _⟩ :=
    frames_queued_once (fun duration _ => duration) false 333000000 0 false 0 admitted
  exact ⟨history, returned, kept .application⟩

end Once

end History

end Quiche.Recovery
