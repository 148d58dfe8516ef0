import Quiche.Data.Machine
import Quiche.Http3Driver

namespace Quiche.Http3Driver

open Data

variable {Conn Header : Type}

/-- What a stream carries, piece by piece. -/
inductive Piece (Header : Type) where
  | headers (headers : List Header)
  | byte (byte : UInt8)
  | fin
deriving DecidableEq

def bodyPieces (body : List UInt8) (fin : Bool) : List (Piece Header) := body.map .byte ++ if fin then [.fin] else []

namespace OutboundFrame

def pieces : OutboundFrame Header → List (Piece Header)
  | .headers list _ => [.headers list]
  | .body bytes fin => bodyPieces bytes fin
  | _ => []

def isMessage : OutboundFrame Header → Bool
  | .headers .. => true
  | .body .. => true
  | _ => false

def hasFin : OutboundFrame Header → Bool
  | .body _ fin => fin
  | _ => false

end OutboundFrame

def Http3.recording (http3 : Http3 Conn Header) : Http3 (Conn × List (Piece Header)) Header where
  recvBody conn streamId :=
    let (after, result) := http3.recvBody conn.1 streamId
    ((after, conn.2), result)
  streamReadable conn streamId := http3.streamReadable conn.1 streamId
  streamFinished conn streamId := http3.streamFinished conn.1 streamId
  streamShutdown conn streamId direction err := (http3.streamShutdown conn.1 streamId direction err, conn.2)
  sendResponseWithPriority conn streamId headers prio :=
    let (after, result) := http3.sendResponseWithPriority conn.1 streamId headers prio
    ((after, conn.2 ++ if result.isOk then [.headers headers] else []), result)
  sendAdditionalHeadersWithPriority conn streamId headers prio :=
    let (after, result) := http3.sendAdditionalHeadersWithPriority conn.1 streamId headers prio
    ((after, conn.2 ++ if result.isOk then [.headers headers] else []), result)
  sendBody conn streamId body fin :=
    let (after, result) := http3.sendBody conn.1 streamId body fin
    let accepted := match result with
      | .ok n => bodyPieces (body.take n) (fin && n == body.length)
      | .error _ => []
    ((after, conn.2 ++ accepted), result)
  sendRequest conn headers fin :=
    let (after, result) := http3.sendRequest conn.1 headers fin
    ((after, conn.2), result)
  peerSettingsRaw conn := http3.peerSettingsRaw conn.1
  close conn := (http3.close conn.1, conn.2)
  extractFlowId := http3.extractFlowId

/-- Headers and bodies are only ever refused for the time being, and no more of a body is taken than was given. -/
structure Http3.Accepts (http3 : Http3 Conn Header) : Prop where
  response : ∀ conn streamId headers prio error,
    (http3.sendResponseWithPriority conn streamId headers prio).2 = .error error → error = .streamBlocked ∨ error = .done
  additional : ∀ conn streamId headers prio error,
    (http3.sendAdditionalHeadersWithPriority conn streamId headers prio).2 = .error error →
      error = .streamBlocked ∨ error = .done
  refused : ∀ conn streamId body fin error,
    (http3.sendBody conn streamId body fin).2 = .error error → error = .streamBlocked ∨ error = .done
  accepted : ∀ conn streamId body fin n, (http3.sendBody conn streamId body fin).2 = .ok n → n ≤ body.length

namespace H3Driver

variable {http3 : Http3 Conn Header}

def queued (ctx : StreamCtx Header) : List (Piece Header) := (ctx.queuedFrame.map (·.pieces)).getD []

def queuedFin (ctx : StreamCtx Header) : Bool := ctx.queuedFrame.any (·.hasFin)

/-- How one call of `process_write_frame` ends: the frame was written, or the stream is blocked, or
the frame was the last one of a stream that the peer has finished. -/
inductive Writes (log : List (Piece Header)) (ctx : StreamCtx Header) (after : List (Piece Header))
    (next : StreamCtx Header) : Except H3.Error Unit → Prop where
  | written (all : after = log ++ queued ctx) : Writes log ctx after next (.ok ())
  | blocked {error : H3.Error} (is : error = .streamBlocked ∨ error = .done)
      (part : after ++ queued next = log ++ queued ctx) (message : next.queuedFrame.all (·.isMessage) = true)
      (fin : queuedFin next = queuedFin ctx) : Writes log ctx after next (.error error)
  | completed (all : after = log ++ queued ctx) (fin : queuedFin ctx = true) (same : next.queuedFrame = ctx.queuedFrame) :
      Writes log ctx after next (.error (.transportError .done))

theorem headers_writes (log : List (Piece Header))
    {ctx next : StreamCtx Header} {headers : List Header} {priority : Option Priority} {result : Except H3.Error Unit}
    (frame : ctx.queuedFrame = some (.headers headers priority)) (same : next.queuedFrame = ctx.queuedFrame)
    (refused : ∀ error, result = .error error → error = .streamBlocked ∨ error = .done) :
    Writes log ctx (log ++ if result.isOk then [.headers headers] else []) next result := by
  have pieces : queued ctx = [.headers headers] := by
    rw [queued, frame]
    rfl
  cases result with
  | ok =>
    refine .written ?_
    rw [pieces]
    rfl
  | error error =>
    refine .blocked (refused error rfl) ?_ ?_ ?_
    · rw [queued, same]
      exact congrArg (· ++ _) (List.append_nil log)
    · rw [same, frame]
      rfl
    · rw [queuedFin, same]
      rfl

theorem processWriteFrame_headers (accepts : http3.Accepts) (conn : Conn) (log : List (Piece Header))
    {ctx : StreamCtx Header} {headers : List Header} {priority : Option Priority}
    (frame : ctx.queuedFrame = some (.headers headers priority)) : ∃ after extended next result,
      processWriteFrame http3.recording (conn, log) ctx = some ((after, extended), next, result) ∧
      Writes log ctx extended next result ∧ next.streamId = ctx.streamId ∧ next.recv = ctx.recv := by
  rw [processWriteFrame, frame]
  dsimp only
  split
  · cases sent : http3.sendAdditionalHeadersWithPriority conn ctx.streamId headers (priority.getD defaultPrio) with
    | mk after result =>
      simp only [Http3.recording, sent]
      refine ⟨after, _, ctx, result, rfl, headers_writes log frame rfl fun error is => ?_, rfl, rfl⟩
      exact accepts.additional conn ctx.streamId headers _ error (by rw [sent, is])
  · cases sent : http3.sendResponseWithPriority conn ctx.streamId headers (priority.getD defaultPrio) with
    | mk after result =>
      have refused : ∀ error, result = .error error → error = .streamBlocked ∨ error = .done := fun error is =>
        accepts.response conn ctx.streamId headers _ error (by rw [sent, is])
      simp only [Http3.recording, sent]
      cases result with
      | ok => exact ⟨after, _, _, _, rfl, headers_writes log frame frame.symm refused, rfl, rfl⟩
      | error error => exact ⟨after, _, ctx, _, rfl, headers_writes log frame rfl refused, rfl, rfl⟩

theorem bodyPieces_split (body : List UInt8) (fin : Bool) (n : Nat) :
    bodyPieces (body.take n) false ++ bodyPieces (body.drop n) fin = (bodyPieces body fin : List (Piece Header)) := by
  simp only [bodyPieces, Bool.false_eq_true, if_false, List.append_nil]
  rw [← List.append_assoc, ← List.map_append, List.take_append_drop]

theorem processWriteFrame_body (accepts : http3.Accepts) (conn : Conn) (log : List (Piece Header))
    {ctx : StreamCtx Header} {body : List UInt8} {fin : Bool} (frame : ctx.queuedFrame = some (.body body fin)) :
    ∃ after extended next result,
      processWriteFrame http3.recording (conn, log) ctx = some ((after, extended), next, result) ∧
      Writes log ctx extended next result ∧ next.streamId = ctx.streamId ∧
      (next.recv = ctx.recv ∨ next.recv = none ∧ queuedFin ctx = true) := by
  have pieces : queued ctx = bodyPieces body fin := by
    rw [queued, frame]
    rfl
  have ends : queuedFin ctx = fin := by
    rw [queuedFin, frame]
    rfl
  rw [processWriteFrame, frame]
  dsimp only
  split
  · rename_i empty
    obtain ⟨noPieces, rfl⟩ := empty
    refine ⟨conn, log, ctx, _, rfl, .written ?_, rfl, .inl rfl⟩
    rw [pieces, List.length_eq_zero_iff.mp noPieces]
    exact (List.append_nil log).symm
  · have dropped : ∃ kept : StreamCtx Header,
        (if fin then { ctx with recv := none, queuedFrame := some (.body body fin) } else ctx) = kept ∧
        kept.queuedFrame = some (.body body fin) ∧ kept.streamId = ctx.streamId ∧
        (kept.recv = ctx.recv ∨ kept.recv = none ∧ queuedFin ctx = true) := by
      refine ⟨_, rfl, ?_⟩
      rw [ends]
      cases fin with
      | true => exact ⟨rfl, rfl, .inr ⟨rfl, rfl⟩⟩
      | false => exact ⟨frame, rfl, .inl rfl⟩
    obtain ⟨kept, is, same, id, recv⟩ := dropped
    rw [is]
    have keptPieces : queued kept = bodyPieces body fin := by
      rw [queued, same]
      rfl
    have keptFin : queuedFin kept = queuedFin ctx := by
      rw [queuedFin, same, ends]
      rfl
    cases sent : http3.sendBody conn kept.streamId body fin with
    | mk after result =>
      simp only [Http3.recording, sent]
      cases result with
      | error error =>
        have refused := accepts.refused conn kept.streamId body fin error (by rw [sent])
        refine ⟨after, _, kept, _, rfl, .blocked refused ?_ ?_ keptFin, id, recv⟩
        · rw [keptPieces, pieces]
          exact congrArg (· ++ _) (List.append_nil log)
        · rw [same]
          rfl
      | ok n =>
        have bound := accepts.accepted conn kept.streamId body fin n (by rw [sent])
        dsimp only
        split
        · rename_i part
          refine ⟨after, _, _, _, rfl, .blocked (.inl rfl) ?_ rfl (ends.symm ▸ rfl), id, recv⟩
          rw [beq_false_of_ne part, Bool.and_false, pieces, List.append_assoc]
          exact congrArg (log ++ ·) (bodyPieces_split body fin n)
        · rename_i whole
          have whole := Decidable.not_not.mp whole
          have all : log ++ bodyPieces (body.take n) (fin && n == body.length) = log ++ queued ctx := by
            rw [whole, List.take_length, beq_self_eq_true, Bool.and_true, pieces]
          cases fin with
          | false => exact ⟨after, _, kept, _, rfl, .written all, id, recv⟩
          | true =>
            cases finished : kept.finRecv with
            | true => exact ⟨after, _, _, _, rfl, .completed all ends (same.trans frame.symm), id, recv⟩
            | false => exact ⟨after, _, _, _, rfl, .written all, id, recv⟩

theorem processWriteFrame_spec (accepts : http3.Accepts) (conn : Conn) (log : List (Piece Header))
    {ctx : StreamCtx Header} (message : ctx.queuedFrame.all (·.isMessage) = true) : ∃ after extended next result,
      processWriteFrame http3.recording (conn, log) ctx = some ((after, extended), next, result) ∧
      Writes log ctx extended next result ∧ next.streamId = ctx.streamId ∧
      (next.recv = ctx.recv ∨ next.recv = none ∧ queuedFin ctx = true) := by
  cases frame : ctx.queuedFrame with
  | none =>
    refine ⟨conn, log, ctx, .ok (), ?_, .written ?_, rfl, .inl rfl⟩
    · rw [processWriteFrame, frame]
    · rw [queued, frame]
      exact (List.append_nil log).symm
  | some front =>
    rw [frame] at message
    cases front with
    | headers headers priority =>
      obtain ⟨after, extended, next, result, written, writes, id, recv⟩ :=
        processWriteFrame_headers accepts conn log frame
      exact ⟨after, extended, next, result, written, writes, id, .inl recv⟩
    | body body fin => exact processWriteFrame_body accepts conn log frame
    | datagram => cases message
    | peerStreamError => cases message
    | flowShutdown => cases message

/-- What the loop leaves of the pieces that it was given: those of the queued frame and of the frames `taken`. -/
def Leaves (streamId : Nat) (given : List (Piece Header)) (log : List (Piece Header)) (ctx : StreamCtx Header) :
    WriteStatus → Prop
  | .idle => log ++ queued ctx = given
  | .waits => log = given ∧ ctx.recv.isSome = true ∧ ctx.queuedFrame = none
  | .finish stream read write => log = given ∧ stream = streamId ∧ read = none ∧ write = none

/-- The frames that were taken from the queue are written up to the one that stays queued. -/
structure Wrote (streamId : Nat) (log : List (Piece Header)) (ctx : StreamCtx Header)
    (queue taken : List (OutboundFrame Header)) (writing : Writing (Conn × List (Piece Header)) Header) : Prop where
  split : queue = taken ++ writing.queue
  message : writing.ctx.queuedFrame.all (·.isMessage) = true
  id : writing.ctx.streamId = ctx.streamId
  fin : queuedFin writing.ctx = true → (queuedFin ctx || taken.any (·.hasFin)) = true
  recv : writing.ctx.recv = ctx.recv ∨ writing.ctx.recv = none ∧ (queuedFin ctx || taken.any (·.hasFin)) = true
  leaves : Leaves streamId (log ++ queued ctx ++ taken.flatMap (·.pieces)) writing.conn.2 writing.ctx writing.status

variable {after : Conn} {log extended : List (Piece Header)} {ctx next : StreamCtx Header} {result : Except H3.Error Unit}
  {queue : List (OutboundFrame Header)}

theorem writeLoop_ends (streamId : Nat) (closed : Bool) {conn : Conn} (message : ctx.queuedFrame.all (·.isMessage) = true)
    (written : processWriteFrame http3.recording (conn, log) ctx = some ((after, extended), next, result))
    (writes : Writes log ctx extended next result) (id : next.streamId = ctx.streamId)
    (recv : next.recv = ctx.recv ∨ next.recv = none ∧ queuedFin ctx = true) (ends : result = .ok () → next.recv = none) :
    ∃ writing, writeLoop http3.recording streamId closed (conn, log) ctx queue = some writing ∧
      Wrote streamId log ctx queue [] writing := by
  have given : log ++ queued ctx ++ ([] : List (OutboundFrame Header)).flatMap (·.pieces) = log ++ queued ctx :=
    List.append_nil _
  have same : (queuedFin ctx || ([] : List (OutboundFrame Header)).any (·.hasFin)) = queuedFin ctx := Bool.or_false _
  rw [← same] at recv
  rw [writeLoop.eq_def, written]
  cases writes with
  | written all =>
    have gone := ends rfl
    rw [gone] at recv
    simp only [gone]
    refine ⟨_, rfl, rfl, rfl, id, nofun, recv, ?_⟩
    rw [Leaves, given, ← all]
    exact List.append_nil _
  | blocked is part message fin =>
    refine ⟨⟨(after, extended), next, queue, .idle⟩, ?_, rfl, message, id, ?_, recv, ?_⟩
    · rcases is with rfl | rfl
      · rfl
      · rfl
    · rw [same, fin]
      exact fun is => is
    · rw [Leaves, given]
      exact part
  | completed all fin kept =>
    refine ⟨⟨(after, extended), next, queue, .finish streamId none none⟩, rfl, rfl, ?_, id, ?_, recv, ?_⟩
    · rw [kept]
      exact message
    · rw [same]
      exact fun _ => fin
    · rw [Leaves, given]
      exact ⟨all, rfl, rfl, rfl⟩

theorem Writes.goes_on (writes : Writes log ctx extended next (.ok ())) : extended = log ++ queued ctx := by
  cases writes with
  | written all => exact all

theorem writeLoop_spec (accepts : http3.Accepts) (streamId : Nat) (closed : Bool)
    (messages : queue.all (·.isMessage) = true) (conn : Conn) (log : List (Piece Header))
    (message : ctx.queuedFrame.all (·.isMessage) = true) :
    ∃ writing taken, writeLoop http3.recording streamId closed (conn, log) ctx queue = some writing ∧
      Wrote streamId log ctx queue taken writing := by
  induction queue generalizing conn log ctx with
  | nil =>
    obtain ⟨after, extended, next, result, written, writes, id, recv⟩ := processWriteFrame_spec accepts conn log message
    by_cases ends : result = .ok () → next.recv = none
    · obtain ⟨writing, looped, wrote⟩ := writeLoop_ends streamId closed message written writes id recv ends
      exact ⟨writing, [], looped, wrote⟩
    · obtain ⟨rfl, kept⟩ := Classical.not_imp.mp ends
      obtain ⟨link, is⟩ := Option.ne_none_iff_exists'.mp kept
      have all := writes.goes_on
      rw [is] at recv
      rw [writeLoop.eq_def, written]
      simp only [is]
      refine ⟨_, [], rfl, rfl, rfl, id, nofun, ?_, ?_⟩
      · rcases recv with same | ⟨gone, _⟩
        · exact .inl same
        · cases gone
      · rw [List.flatMap_nil, List.append_nil, ← all]
        cases closed with
        | true => exact List.append_nil _
        | false => exact ⟨rfl, rfl, rfl⟩
  | cons frame rest ih =>
    obtain ⟨after, extended, next, result, written, writes, id, recv⟩ := processWriteFrame_spec accepts conn log message
    by_cases ends : result = .ok () → next.recv = none
    · obtain ⟨writing, looped, wrote⟩ := writeLoop_ends streamId closed message written writes id recv ends
      exact ⟨writing, [], looped, wrote⟩
    · obtain ⟨rfl, kept⟩ := Classical.not_imp.mp ends
      obtain ⟨link, is⟩ := Option.ne_none_iff_exists'.mp kept
      have all := writes.goes_on
      rw [is] at recv
      rw [List.all_cons, Bool.and_eq_true] at messages
      obtain ⟨writing, taken, looped, wrote⟩ := ih messages.2 after extended
        (show (({ next with recv := some link, queuedFrame := some frame } : StreamCtx Header).queuedFrame.all
          (·.isMessage)) = true from messages.1)
      refine ⟨writing, frame :: taken, ?_, ?_, wrote.message, wrote.id.trans id, ?_, ?_, ?_⟩
      · rw [writeLoop.eq_def, written]
        simp only [is]
        exact looped
      · rw [wrote.split]
        rfl
      · intro fin
        rw [List.any_cons]
        exact Bool.or_eq_true_iff.mpr (.inr (wrote.fin fin))
      · rcases wrote.recv with same | ⟨gone, fin⟩
        · refine .inl (same.trans ?_)
          rcases recv with same | ⟨gone, _⟩
          · exact same
          · cases gone
        · rw [List.any_cons]
          exact .inr ⟨gone, Bool.or_eq_true_iff.mpr (.inr fin)⟩
      · have leaves := wrote.leaves
        rw [all, List.append_assoc] at leaves
        exact leaves

section Run

/-- What happens on the way out of a stream: the application sends a frame or drops its sender, the
stream is writable, a future is polled, the connection makes progress, and the way in receives the FIN
of the peer. -/
inductive OutboundOp (Conn Header : Type) where
  | send (frame : OutboundFrame Header)
  | hangUp
  | writable
  | ready (index : Nat)
  | progress (conn : Conn)
  | finReceived

def accepted (driver : H3Driver (Conn × List (Piece Header)) Header) : List (Piece Header) := driver.conn.2

def sendFrame {Conn : Type} (driver : H3Driver Conn Header) (link : Nat) (frame : OutboundFrame Header) :
    H3Driver Conn Header :=
  let channel := driver.outbound link
  if channel.sending && !channel.closed && decide (channel.queue.length < channel.capacity) then
    driver.updateOutbound link (.send · frame)
  else driver

/-- What the way out sees of `process_h3_fin`. -/
def receiveFin {Conn : Type} (driver : H3Driver Conn Header) (streamId : Nat) : H3Driver Conn Header :=
  match driver.streamMap streamId with
  | some ctx => driver.setStream streamId (some { ctx with finRecv := true })
  | none => driver

def outboundStep (http3 : Http3 Conn Header) (streamId link : Nat)
    (driver : H3Driver (Conn × List (Piece Header)) Header) :
    OutboundOp Conn Header → Option (H3Driver (Conn × List (Piece Header)) Header)
  | .send frame => some (driver.sendFrame link frame)
  | .hangUp => some (driver.updateOutbound link .dropSender)
  | .writable => driver.processWritableStream http3.recording streamId
  | .ready index => (driver.upstreamReady http3.recording index).map Prod.fst
  | .progress conn => some { driver with conn := (conn, driver.conn.2) }
  | .finReceived => some (driver.receiveFin streamId)

def outboundMachine (http3 : Http3 Conn Header) (streamId link : Nat) :
    Machine (H3Driver (Conn × List (Piece Header)) Header) (OutboundOp Conn Header) :=
  ⟨outboundStep http3 streamId link⟩

/-- Only headers and bodies are sent on the channel. -/
def SendsMessage {State : Type} (_ : State) : OutboundOp Conn Header → Prop
  | .send frame => frame.isMessage = true
  | _ => True

instance {State : Type} (state : State) (op : OutboundOp Conn Header) : Decidable (SendsMessage state op) := by
  rcases op with ⟨⟩
  case send => exact inferInstanceAs (Decidable (_ = true))
  all_goals exact .isTrue trivial

/-- The receiver of a stream is in its context or in one future, or the last frame was dequeued. -/
inductive Placed (streamId link : Nat) (ctx : StreamCtx Header) (waiting : List WaitForStream)
    (received : List (OutboundFrame Header)) : Prop where
  | context (holds : ctx.recv = some link) (nowhere : waiting = [])
  | future (moved : ctx.recv = none) (once : waiting = [.downstream streamId link]) (empty : ctx.queuedFrame = none)
  | dropped (gone : ctx.recv = none) (nowhere : waiting = []) (fin : received.any (·.hasFin) = true)

/-- What was received from the channel is what was accepted and what is still queued. -/
structure Carried (streamId link : Nat) (ctx : StreamCtx Header) (waiting : List WaitForStream)
    (received : List (OutboundFrame Header)) (log : List (Piece Header)) : Prop where
  id : ctx.streamId = streamId
  message : ctx.queuedFrame.all (·.isMessage) = true
  fin : queuedFin ctx = true → received.any (·.hasFin) = true
  pieces : log ++ queued ctx = received.flatMap (·.pieces)
  placed : Placed streamId link ctx waiting received

/-- The driver carries the frames of the channel to the stream, in order and without loss. -/
structure Carries (streamId link : Nat) (driver : H3Driver (Conn × List (Piece Header)) Header) : Prop where
  messages : (driver.outbound link).queue.all (·.isMessage) = true
  carried : ∀ ctx, driver.streamMap streamId = some ctx →
    Carried streamId link ctx driver.waitingStreams (driver.outbound link).received driver.accepted
  finished : driver.streamMap streamId = none →
    driver.waitingStreams = [] ∧ driver.accepted = (driver.outbound link).received.flatMap (·.pieces)

variable {streamId link : Nat} {driver final : H3Driver (Conn × List (Piece Header)) Header}

theorem updateOutbound_self (driver : H3Driver Conn Header) (link : Nat)
    (change : Channel (OutboundFrame Header) → Channel (OutboundFrame Header)) :
    (driver.updateOutbound link change).outbound link = change (driver.outbound link) := Function.update_self ..

theorem Carries.of_channel (carries : driver.Carries streamId link)
    (messages : queue.all (·.isMessage) = true) {next : H3Driver (Conn × List (Piece Header)) Header}
    (streams : next.streamMap = driver.streamMap) (waiting : next.waitingStreams = driver.waitingStreams)
    (log : next.accepted = driver.accepted) (kept : (next.outbound link).queue = queue)
    (received : (next.outbound link).received = (driver.outbound link).received) : next.Carries streamId link := by
  refine ⟨kept ▸ messages, fun ctx present => ?_, fun absent => ?_⟩
  · rw [waiting, log, received]
    rw [streams] at present
    exact carries.carried ctx present
  · rw [waiting, log, received]
    rw [streams] at absent
    exact carries.finished absent

/-- The context holds the receiver of the link until a FIN came out of it. -/
def Held (link : Nat) (ctx : StreamCtx Header) (received : List (OutboundFrame Header)) : Prop :=
  ctx.recv = some link ∨ ctx.recv = none ∧ received.any (·.hasFin) = true

variable {ctx : StreamCtx Header} {queue taken received : List (OutboundFrame Header)} {log : List (Piece Header)}
  {writing : Writing (Conn × List (Piece Header)) Header}

theorem fin_received (fin : queuedFin ctx = true → received.any (·.hasFin) = true)
    (ends : (queuedFin ctx || taken.any (·.hasFin)) = true) : (received ++ taken).any (·.hasFin) = true := by
  rw [List.any_append, Bool.or_eq_true_iff]
  rcases Bool.or_eq_true_iff.mp ends with queuedEnds | takenEnds
  · exact .inl (fin queuedEnds)
  · exact .inr takenEnds

theorem Wrote.placed (wrote : Wrote streamId log ctx queue taken writing)
    (fin : queuedFin ctx = true → received.any (·.hasFin) = true) (held : Held link ctx received) :
    Placed streamId link writing.ctx [] (received ++ taken) := by
  rcases wrote.recv with same | ⟨gone, ends⟩
  · rcases held with holds | ⟨gone, ends⟩
    · exact .context (same.trans holds) rfl
    · refine .dropped (same.trans gone) rfl ?_
      rw [List.any_append, ends]
      rfl
  · exact .dropped gone rfl (fin_received fin ends)

theorem Wrote.carries (wrote : Wrote streamId log ctx queue taken writing) (id : ctx.streamId = streamId)
    (fin : queuedFin ctx = true → received.any (·.hasFin) = true)
    (pieces : log ++ queued ctx = received.flatMap (·.pieces)) (held : Held link ctx received) :
    match writing.status with
    | .idle => Carried streamId link writing.ctx [] (received ++ taken) writing.conn.2
    | .waits => Carried streamId link { writing.ctx with recv := none } [.downstream streamId link] (received ++ taken)
          writing.conn.2 ∧ writing.ctx.recv = some link
    | .finish stream _ _ => stream = streamId ∧ writing.conn.2 = (received ++ taken).flatMap (·.pieces) := by
  have leaves := wrote.leaves
  rw [pieces, ← List.flatMap_append] at leaves
  have more : queuedFin writing.ctx = true → (received ++ taken).any (·.hasFin) = true := fun is =>
    fin_received fin (wrote.fin is)
  cases is : writing.status with
  | idle =>
    rw [is] at leaves
    exact ⟨wrote.id.trans id, wrote.message, more, leaves, wrote.placed fin held⟩
  | waits =>
    rw [is] at leaves
    obtain ⟨all, somePieces, empty⟩ := leaves
    have holds : writing.ctx.recv = some link := by
      rcases wrote.recv with same | ⟨gone, _⟩
      · rcases held with holds | ⟨gone, _⟩
        · exact same.trans holds
        · rw [same, gone] at somePieces
          cases somePieces
      · rw [gone] at somePieces
        cases somePieces
    refine ⟨⟨wrote.id.trans id, wrote.message, more, ?_, .future rfl rfl empty⟩, holds⟩
    show writing.conn.2 ++ (writing.ctx.queuedFrame.map _).getD [] = _
    rw [empty, all]
    exact List.append_nil _
  | finish stream read write =>
    rw [is] at leaves
    exact ⟨leaves.2.1, leaves.1⟩

theorem taken_received {channel : Channel (OutboundFrame Header)} (split : channel.queue = taken ++ queue) (kept : Bool) :
    (channel.recvUntil queue kept).received = channel.received ++ taken := by
  show channel.received ++ channel.queue.take (channel.queue.length - queue.length) = _
  rw [split, List.length_append, Nat.add_sub_cancel, List.take_left]

theorem carries_of_some (messages : (driver.outbound link).queue.all (·.isMessage) = true)
    (present : driver.streamMap streamId = some ctx)
    (carried : Carried streamId link ctx driver.waitingStreams (driver.outbound link).received driver.accepted) :
    driver.Carries streamId link := by
  refine ⟨messages, fun other is => ?_, fun absent => ?_⟩
  · cases present.symm.trans is
    exact carried
  · rw [present] at absent
    cases absent

theorem finishStream_carries (present : driver.streamMap streamId = some ctx)
    (messages : (driver.outbound link).queue.all (·.isMessage) = true) (nowhere : driver.waitingStreams = [])
    (pieces : driver.accepted = (driver.outbound link).received.flatMap (·.pieces)) (read write : Option Nat) :
    (driver.finishStream http3.recording streamId read write).Carries streamId link := by
  have finishes : Finishes http3.recording driver streamId read write
      (driver.finishStream http3.recording streamId read write) := finishStream_some present read write
  obtain ⟨queue, received⟩ := finishes.outbound link
  have log : ∀ conn : Conn × List (Piece Header), (shutdowns http3.recording conn streamId read write).2 = conn.2 := by
    intro conn
    cases read <;> cases write <;> rfl
  refine ⟨queue ▸ messages, fun other is => ?_, fun _ => ⟨finishes.waiting.trans nowhere, ?_⟩⟩
  · rw [finishes.streams, Function.update_self] at is
    cases is
  · rw [received, accepted, finishes.conn, log]
    exact pieces

theorem writing_carries (present : driver.streamMap streamId = some ctx) (nowhere : driver.waitingStreams = [])
    (messages : (driver.outbound link).queue.all (·.isMessage) = true) (after : match writing.status with
      | .idle => Carried streamId link writing.ctx [] (driver.outbound link).received writing.conn.2
      | .waits => Carried streamId link { writing.ctx with recv := none } [.downstream streamId link]
          (driver.outbound link).received writing.conn.2 ∧ writing.ctx.recv = some link
      | .finish stream _ _ => stream = streamId ∧
          writing.conn.2 = (driver.outbound link).received.flatMap (·.pieces)) :
    ∃ next, (match writing.status with
        | .idle => some { driver.setStream streamId (some writing.ctx) with conn := writing.conn }
        | .waits =>
          let pending := writing.ctx.recv.map fun chan => WaitForStream.downstream streamId chan
          some { { driver.setStream streamId (some writing.ctx) with conn := writing.conn }.setStream streamId
            (some { writing.ctx with recv := none }) with waitingStreams := driver.waitingStreams ++ pending.toList }
        | .finish stream read write =>
          some ({ driver.setStream streamId (some writing.ctx) with conn := writing.conn }.finishStream
            http3.recording stream read write)) = some next ∧ next.Carries streamId link := by
  cases is : writing.status with
  | idle =>
    rw [is] at after
    refine ⟨_, rfl, carries_of_some messages (Function.update_self ..) ?_⟩
    show Carried _ _ _ driver.waitingStreams _ _
    rw [nowhere]
    exact after
  | waits =>
    rw [is] at after
    obtain ⟨carried, holds⟩ := after
    refine ⟨_, rfl, carries_of_some messages (Function.update_self ..) ?_⟩
    show Carried _ _ _ (driver.waitingStreams ++ _) _ _
    rw [nowhere, holds]
    exact carried
  | finish stream read write =>
    rw [is] at after
    obtain ⟨rfl, pieces⟩ := after
    have there : { driver.setStream stream (some writing.ctx) with conn := writing.conn }.streamMap stream =
        some writing.ctx := Function.update_self ..
    exact ⟨_, rfl, finishStream_carries there messages nowhere pieces read write⟩

section

variable (accepts : http3.Accepts) (carries : driver.Carries streamId link)

include accepts carries

theorem processWritableStream_carries :
    ∃ next, driver.processWritableStream http3.recording streamId = some next ∧ next.Carries streamId link := by
  rw [processWritableStream]
  cases present : driver.streamMap streamId with
  | none => exact ⟨driver, rfl, carries⟩
  | some ctx =>
    have carried := carries.carried ctx present
    dsimp only
    cases carried.placed with
    | future moved once empty =>
      have idle : writeLoop http3.recording streamId false driver.conn ctx [] =
          some ⟨driver.conn, { ctx with queuedFrame := none }, [], .idle⟩ := by
        rw [writeLoop.eq_def, processWriteFrame, empty]
        simp only [moved]
      rw [moved]
      simp only [Option.map_none, Option.getD_none, Option.any_none, idle]
      refine ⟨_, rfl, carries_of_some carries.messages (Function.update_self ..) ?_⟩
      refine ⟨carried.id, rfl, nofun, ?_, .future moved once rfl⟩
      have pieces := carried.pieces
      rw [queued, empty] at pieces
      exact pieces
    | context holds nowhere =>
      rw [holds]
      simp only [Option.map_some, Option.getD_some]
      obtain ⟨writing, taken, looped, wrote⟩ := writeLoop_spec accepts streamId
        ((some (driver.outbound link)).any fun channel => !channel.sending || channel.closed) carries.messages
        driver.conn.1 driver.conn.2 carried.message
      rw [looped]
      have after := wrote.carries carried.id carried.fin carried.pieces (.inl holds)
      rw [← taken_received wrote.split writing.ctx.recv.isSome] at after
      have outbound := updateOutbound_self driver link fun channel =>
        channel.recvUntil writing.queue writing.ctx.recv.isSome
      have rest : writing.queue.all (·.isMessage) = true := by
        have all := carries.messages
        rw [wrote.split, List.all_append, Bool.and_eq_true] at all
        exact all.2
      rw [← outbound] at after
      have messages : ((driver.updateOutbound link fun channel =>
          channel.recvUntil writing.queue writing.ctx.recv.isSome).outbound link).queue.all (·.isMessage) = true := by
        rw [outbound]
        exact rest
      have there : (driver.updateOutbound link fun channel =>
          channel.recvUntil writing.queue writing.ctx.recv.isSome).streamMap streamId = some ctx := present
      exact writing_carries there nowhere messages after
    | dropped gone nowhere fin =>
      rw [gone]
      simp only [Option.map_none, Option.getD_none, Option.any_none]
      obtain ⟨writing, taken, looped, wrote⟩ := writeLoop_spec accepts streamId false (List.all_nil) driver.conn.1
        driver.conn.2 carried.message
      have held : Held link ctx (driver.outbound link).received := .inr ⟨gone, fin⟩
      have after := wrote.carries carried.id carried.fin carried.pieces held
      have nothing := (List.append_eq_nil_iff.mp wrote.split.symm).1
      rw [nothing, List.append_nil] at after
      rw [looped]
      exact writing_carries present nowhere carries.messages after

theorem upstreamReadReady_carries
    (present : driver.streamMap streamId = some ctx) (once : driver.waitingStreams = [.downstream streamId link]) :
    ∃ next, { driver with waitingStreams := [] }.upstreamReadReady http3.recording streamId link = some next ∧
      next.Carries streamId link := by
  have carried := carries.carried ctx present
  have empty : ctx.queuedFrame = none := by
    cases carried.placed with
    | context holds nowhere =>
      rw [once] at nowhere
      cases nowhere
    | future moved waits empty => exact empty
    | dropped gone nowhere fin =>
      rw [once] at nowhere
      cases nowhere
  have log : driver.accepted = (driver.outbound link).received.flatMap (·.pieces) := by
    have pieces := carried.pieces
    rw [queued, empty] at pieces
    exact (List.append_nil _).symm.trans pieces
  rw [upstreamReadReady]
  have there : ({ driver with waitingStreams := [] }.updateOutbound link .recv).streamMap streamId = some ctx := present
  simp only [there]
  refine processWritableStream_carries accepts (carries_of_some ?_ (Function.update_self ..) ?_)
  · show ((Function.update driver.outbound link _ link).queue).all _ = true
    rw [Function.update_self]
    have all := carries.messages
    rw [List.all_eq_true] at all ⊢
    exact fun frame member => all frame (List.mem_of_mem_tail member)
  · show Carried streamId link _ [] (Function.update driver.outbound link _ link).received driver.accepted
    rw [Function.update_self, log]
    show Carried streamId link _ [] ((driver.outbound link).received ++ (driver.outbound link).queue.head?.toList) _
    have messages := carries.messages
    cases waits : (driver.outbound link).queue with
    | nil =>
      refine ⟨carried.id, rfl, nofun, ?_, .context rfl rfl⟩
      simp only [List.head?_nil, Option.toList_none, List.append_nil, queued, Option.map_none, Option.getD_none]
    | cons frame rest =>
      rw [waits, List.all_cons, Bool.and_eq_true] at messages
      refine ⟨carried.id, messages.1, fun fin => ?_, ?_, .context rfl rfl⟩
      · have ends : frame.hasFin = true := fin
        simp only [List.head?_cons, Option.toList_some, List.any_append, List.any_cons, ends, Bool.true_or, Bool.or_true]
      · simp only [List.head?_cons, Option.toList_some, List.flatMap_append, List.flatMap_cons, List.flatMap_nil,
          List.append_nil, queued, Option.map_some, Option.getD_some]

theorem outboundStep_carries {op : OutboundOp Conn Header} (admits : SendsMessage driver op) :
    ∃ next, driver.outboundStep http3 streamId link op = some next ∧ next.Carries streamId link := by
  cases op with
  | send frame =>
    refine ⟨_, rfl, ?_⟩
    rw [sendFrame]
    split
    · have message : frame.isMessage = true := admits
      have more : ((driver.outbound link).queue ++ [frame]).all (·.isMessage) = true := by
        rw [List.all_append, carries.messages, List.all_cons, message]
        rfl
      refine carries.of_channel more rfl rfl rfl ?_ ?_
      · rw [updateOutbound_self]
        rfl
      · rw [updateOutbound_self]
        rfl
    · exact carries
  | hangUp =>
    refine ⟨_, rfl, carries.of_channel carries.messages rfl rfl rfl ?_ ?_⟩
    · rw [updateOutbound_self]
      rfl
    · rw [updateOutbound_self]
      rfl
  | writable => exact processWritableStream_carries accepts carries
  | ready index =>
    rw [outboundStep, upstreamReady]
    cases found : driver.waitingStreams[index]? with
    | none => exact ⟨driver, rfl, carries⟩
    | some pending =>
      dsimp only
      split
      · cases present : driver.streamMap streamId with
        | none =>
          rw [(carries.finished present).1] at found
          cases found
        | some ctx =>
          have once : driver.waitingStreams = [.downstream streamId link] := by
            cases (carries.carried ctx present).placed with
            | context holds nowhere =>
              rw [nowhere] at found
              cases found
            | future moved once empty => exact once
            | dropped gone nowhere fin =>
              rw [nowhere] at found
              cases found
          rw [once] at found ⊢
          cases index with
          | zero =>
            cases found
            obtain ⟨next, resumed, carries⟩ := upstreamReadReady_carries accepts carries present once
            refine ⟨next, ?_, carries⟩
            simp only [List.eraseIdx_zero, List.tail_cons, resumed, Option.map_some]
          | succ index => cases found
      · exact ⟨driver, rfl, carries⟩
  | progress conn =>
    exact ⟨_, rfl, carries.of_channel carries.messages rfl rfl rfl rfl rfl⟩
  | finReceived =>
    refine ⟨_, rfl, ?_⟩
    rw [receiveFin]
    cases present : driver.streamMap streamId with
    | none => exact carries
    | some ctx =>
      have carried := carries.carried ctx present
      refine carries_of_some carries.messages (Function.update_self ..)
        ⟨carried.id, carried.message, carried.fin, carried.pieces, ?_⟩
      cases carried.placed with
      | context holds nowhere => exact .context holds nowhere
      | future moved once empty => exact .future moved once empty
      | dropped gone nowhere fin => exact .dropped gone nowhere fin

end

/-- The stream is open on an unused channel. -/
structure Opened (streamId link : Nat) (driver : H3Driver (Conn × List (Piece Header)) Header) : Prop where
  unused : (driver.outbound link).queue = [] ∧ (driver.outbound link).received = [] ∧ driver.accepted = []
  ctx : ∃ ctx, driver.streamMap streamId = some ctx ∧ ctx.streamId = streamId ∧ ctx.queuedFrame = none ∧
    (ctx.recv = some link ∧ driver.waitingStreams = [] ∨
      ctx.recv = none ∧ driver.waitingStreams = [.downstream streamId link])

theorem Opened.carries (opened : Opened streamId link driver) : driver.Carries streamId link := by
  obtain ⟨⟨queue, received, log⟩, ctx, present, id, empty, placed⟩ := opened
  refine carries_of_some (queue.symm ▸ rfl) present ?_
  rw [received, log]
  refine ⟨id, by rw [empty]; rfl, ?_, ?_, ?_⟩
  · rw [queuedFin, empty]
    exact nofun
  · rw [queued, empty]
    rfl
  · rcases placed with ⟨holds, nowhere⟩ | ⟨moved, once⟩
    · exact .context holds nowhere
    · exact .future moved once empty

/-- The connection accepts what the application sends, in order and once. What was received and is not
accepted yet is queued; a context that is left, or one future, holds the receiver until the last
frame was dequeued. -/
theorem outbound_in_order (accepts : http3.Accepts) (opened : Opened streamId link driver)
    {ops : List (OutboundOp Conn Header)}
    (guarded : (outboundMachine http3 streamId link).Guarded SendsMessage driver ops) :
    ∃ final, (outboundMachine http3 streamId link).run driver ops = some final ∧
      List.IsPrefix final.accepted ((final.outbound link).sent.flatMap (·.pieces)) ∧
      ∀ ctx, final.streamMap streamId = some ctx →
        final.accepted ++ queued ctx = (final.outbound link).received.flatMap (·.pieces) ∧
        Placed streamId link ctx final.waitingStreams (final.outbound link).received := by
  obtain ⟨final, returned, carries⟩ := (outboundMachine http3 streamId link).run_total_of_guarded
    (fun _ _ carries admits => outboundStep_carries accepts carries admits) opened.carries guarded
  refine ⟨final, returned, ?_, fun ctx present => ?_⟩
  · rw [Channel.sent, List.flatMap_append]
    cases present : final.streamMap streamId with
    | none =>
      rw [← (carries.finished present).2]
      exact List.prefix_append _ _
    | some ctx =>
      rw [← (carries.carried ctx present).pieces, List.append_assoc]
      exact List.prefix_append _ _
  · have carried := carries.carried ctx present
    exact ⟨carried.pieces, carried.placed⟩

theorem openFlow_spec (http3 : Http3 Conn Header) (listens : driver.controllerListens = true) (ctx : StreamCtx Header)
    (headers : List Header) : ∃ events flowMap flowId, driver.openFlow http3.recording ctx headers =
      (({ driver with h3EventSender := events, flowMap }, .ok ()), { ctx with associatedDgramFlowId := flowId }) := by
  rw [openFlow]
  cases http3.recording.extractFlowId ctx.streamId headers with
  | none => exact ⟨driver.h3EventSender, driver.flowMap, ctx.associatedDgramFlowId, rfl⟩
  | some flowId =>
    dsimp only
    rw [getOrInsertFlow]
    split
    · exact ⟨driver.h3EventSender, driver.flowMap, some flowId, rfl⟩
    · simp only [sendEvent, notify, listens, if_true]
      exact ⟨_, _, some flowId, rfl⟩

/-- The stream has the context that was made for it, and its receiver is in the only future. -/
theorem opened_of_new (flowId : Option Nat) {next : H3Driver (Conn × List (Piece Header)) Header}
    (nowhere : driver.waitingStreams = []) (log : driver.accepted = [])
    (outbound : next.outbound = Function.update driver.outbound driver.nextLink (.new driver.streamCapacity))
    (same : next.accepted = driver.accepted) (streams : next.streamMap = Function.update driver.streamMap streamId
      (some { StreamCtx.new streamId driver.nextLink with associatedDgramFlowId := flowId, recv := none }))
    (placed : next.waitingStreams = driver.waitingStreams ++ [.downstream streamId driver.nextLink]) :
    Opened streamId driver.nextLink next := by
  refine ⟨?_, { StreamCtx.new streamId driver.nextLink with associatedDgramFlowId := flowId, recv := none }, ?_, rfl, rfl,
    .inr ⟨rfl, ?_⟩⟩
  · rw [outbound, Function.update_self, same]
    exact ⟨rfl, rfl, log⟩
  · rw [streams, Function.update_self]
  · rw [placed, nowhere]
    rfl

theorem handleRequest_opened (listens : driver.controllerListens = true) (absent : driver.streamMap streamId = none)
    (nowhere : driver.waitingStreams = []) (log : driver.accepted = []) (headers : List Header) (hasBody : Bool) :
    ∃ next, driver.handleRequest http3.recording streamId headers hasBody = (next, .ok ()) ∧
      Opened streamId driver.nextLink next := by
  obtain ⟨events, flowMap, flowId, opens⟩ := openFlow_spec http3
    (show (driver.newStreamCtx streamId).1.controllerListens = true from listens) (driver.newStreamCtx streamId).2 headers
  rw [handleRequest, absent]
  simp only [Option.isSome_none, Bool.false_eq_true, if_false, opens]
  have heard : ∀ (waiting : H3Driver (Conn × List (Piece Header)) Header) (event : Event),
      waiting.controllerListens = true →
        waiting.sendEvent event = ({ waiting with h3EventSender := waiting.h3EventSender ++ [event] }, .ok ()) := by
    intro waiting event listens
    rw [sendEvent, notify, listens]
    rfl
  rw [heard]
  swap
  · exact listens
  dsimp only
  split
  · exact ⟨_, rfl, opened_of_new flowId nowhere log rfl rfl rfl rfl⟩
  · exact ⟨_, rfl, opened_of_new flowId nowhere log rfl rfl rfl rfl⟩

/-- A connection that takes two bytes at a time. -/
def sluggish : Http3 Unit Unit where
  recvBody _ _ := ((), .error .done)
  streamReadable _ _ := false
  streamFinished _ _ := false
  streamShutdown _ _ _ _ := ()
  sendResponseWithPriority _ _ _ _ := ((), .ok ())
  sendAdditionalHeadersWithPriority _ _ _ _ := ((), .ok ())
  sendBody _ _ body _ := ((), .ok (min 2 body.length))
  sendRequest _ _ _ := ((), .ok 0)
  peerSettingsRaw _ := none
  close _ := ()
  extractFlowId _ _ := none

theorem sluggish_accepts : sluggish.Accepts where
  response _ _ _ _ _ := nofun
  additional _ _ _ _ _ := nofun
  refused _ _ _ _ _ := nofun
  accepted _ _ _ _ _ is := by
    cases is
    exact Nat.min_le_right _ _

def answered : List (OutboundOp Unit Unit) :=
  [.ready 0, .send (.headers [()] none), .ready 0, .send (.body [1, 2, 3] true), .ready 0, .finReceived, .writable]

def opened : H3Driver (Unit × List (Piece Unit)) Unit :=
  ((new ((), []) (.server 0 none) 1).handleRequest sluggish.recording 0 [] false).1

theorem outbound_in_order_answered : ∃ final, (outboundMachine sluggish 0 0).run opened answered = some final ∧
      final.accepted = [.headers [()], .byte 1, .byte 2, .byte 3, .fin] ∧
      List.IsPrefix final.accepted ((final.outbound 0).sent.flatMap (·.pieces)) := by
  have unopened : (new ((), []) (.server 0 none) 1 : H3Driver (Unit × List (Piece Unit)) Unit).accepted = [] := rfl
  have requests : ∃ next, (new ((), []) (.server 0 none) 1).handleRequest sluggish.recording 0 [] false = (next, .ok ()) ∧
      Opened 0 0 next := handleRequest_opened rfl rfl rfl unopened [] false
  obtain ⟨next, requested, opens⟩ := requests
  have is : opened = next := congrArg Prod.fst requested
  have guarded : (outboundMachine sluggish 0 0).Guarded SendsMessage opened answered := by decide +kernel
  have taken : ((outboundMachine sluggish 0 0).run opened answered).map (·.accepted) =
      some [.headers [()], .byte 1, .byte 2, .byte 3, .fin] := by
    decide +kernel
  rw [is] at guarded taken ⊢
  obtain ⟨final, returned, order, _⟩ := outbound_in_order sluggish_accepts opens guarded
  rw [returned] at taken
  exact ⟨final, returned, Option.some.inj taken, order⟩

end Run

end H3Driver

end Quiche.Http3Driver
