import Quiche.Data.Machine
import Quiche.Http3Driver

namespace Quiche.Http3Driver

open Data

/-- One stream as the HTTP/3 connection holds it: the body bytes that arrived, those that were read, and
those that are left to read. `extra` says that other bytes are left, `exhausted` that the connection takes the
stream to be finished, `told` that it has returned the `Finished` event, and `armed` that it may return a
`Data` event. `amounts` says how much the next calls of `recv_body` return at most, and `silent` that
they report no error for a stream that was reset. -/
structure Incoming where
  body : List UInt8
  read : List UInt8
  unread : List UInt8
  extra : Bool
  fin : Bool
  reset : Bool
  exhausted : Bool
  told : Bool
  armed : Bool
  amounts : List Nat
  silent : Bool

namespace Incoming

def new : Incoming where
  body := []
  read := []
  unread := []
  extra := false
  fin := false
  reset := false
  exhausted := false
  told := false
  armed := true
  amounts := []
  silent := false

def streamFinished (incoming : Incoming) : Bool :=
  incoming.reset || incoming.fin && incoming.unread.isEmpty && !incoming.extra

def streamReadable (incoming : Incoming) : Bool :=
  !incoming.unread.isEmpty || incoming.extra || incoming.fin && !incoming.exhausted || incoming.reset

def settle (incoming : Incoming) : Incoming :=
  { incoming with exhausted := incoming.exhausted || incoming.streamFinished }

/-- Some of the body bytes that are left, of which there is one. -/
def take (incoming : Incoming) : Incoming × List UInt8 :=
  let n := max 1 (incoming.amounts.headD incoming.unread.length)
  ({ incoming with
      read := incoming.read ++ incoming.unread.take n
      unread := incoming.unread.drop n
      amounts := incoming.amounts.tail }, incoming.unread.take n)

/-- `recv_body`: the `Data` event is armed again when there is nothing to read. -/
def recvBody (incoming : Incoming) : Incoming × Except H3.Error (List UInt8) :=
  if incoming.reset then
    (incoming.settle, .error (if incoming.silent then .done else .transportError (.streamReset 0)))
  else if incoming.unread.isEmpty then ({ incoming.settle with armed := true }, .error .done)
  else
    let (incoming, bytes) := incoming.take
    let incoming := incoming.settle
    ({ incoming with armed := incoming.armed || !incoming.streamReadable }, .ok bytes)

/-- Nothing arrives after the end, where only `extra` bytes may be taken away. -/
def arrive (incoming : Incoming) (bytes : List UInt8) (extra : Bool) : Incoming :=
  if incoming.reset then incoming
  else if incoming.fin then { incoming with extra := incoming.extra && extra }
  else { incoming with body := incoming.body ++ bytes, unread := incoming.unread ++ bytes, extra }

def resetStream (incoming : Incoming) : Incoming :=
  if incoming.streamFinished then incoming else { incoming with reset := true, unread := [], extra := false }

def whole (incoming : Incoming) : Bool := incoming.streamFinished && !incoming.reset

def canData (incoming : Incoming) : Bool := incoming.armed && incoming.streamReadable && !incoming.exhausted

def canFinish (incoming : Incoming) : Bool := incoming.whole && !incoming.told

variable {incoming middle next : Incoming} {bytes more : List UInt8}

/-- The bytes at the front of those unread were read. -/
structure Took (incoming : Incoming) (bytes : List UInt8) (next : Incoming) : Prop where
  body : next.body = incoming.body
  read : next.read = incoming.read ++ bytes
  unread : incoming.unread = bytes ++ next.unread
  extra : next.extra = incoming.extra
  fin : next.fin = incoming.fin
  reset : next.reset = incoming.reset
  told : next.told = incoming.told
  silent : next.silent = incoming.silent
  exhausted : next.exhausted = true → incoming.exhausted = true ∨ next.streamFinished = true

theorem streamFinished_iff (incoming : Incoming) : incoming.streamFinished = true ↔
    incoming.reset = true ∨ incoming.fin = true ∧ incoming.unread = [] ∧ incoming.extra = false := by
  simp only [streamFinished, Bool.or_eq_true, Bool.and_eq_true, List.isEmpty_iff, Bool.not_eq_true', and_assoc]

theorem streamReadable_iff (incoming : Incoming) : incoming.streamReadable = true ↔
    incoming.unread ≠ [] ∨ incoming.extra = true ∨ incoming.fin = true ∧ incoming.exhausted = false ∨
      incoming.reset = true := by
  simp only [streamReadable, Bool.or_eq_true, Bool.and_eq_true, Bool.not_eq_true', List.isEmpty_eq_false_iff, or_assoc]

theorem Took.streamFinished (took : Took incoming bytes next) (finished : incoming.streamFinished = true) :
    next.streamFinished = true := by
  rw [streamFinished_iff] at finished ⊢
  rw [took.reset, took.fin, took.extra]
  rcases finished with reset | ⟨fin, empty, extra⟩
  · exact .inl reset
  · rw [took.unread] at empty
    exact .inr ⟨fin, (List.append_eq_nil_iff.mp empty).2, extra⟩

theorem Took.trans (first : Took incoming bytes middle) (second : Took middle more next) :
    Took incoming (bytes ++ more) next where
  body := second.body.trans first.body
  read := by rw [second.read, first.read, List.append_assoc]
  unread := by rw [first.unread, second.unread, List.append_assoc]
  extra := second.extra.trans first.extra
  fin := second.fin.trans first.fin
  reset := second.reset.trans first.reset
  told := second.told.trans first.told
  silent := second.silent.trans first.silent
  exhausted isOver := by
    rcases second.exhausted isOver with before | finished
    · exact (first.exhausted before).imp_right second.streamFinished
    · exact .inr finished

theorem took_nothing (incoming : Incoming) : Took incoming [] incoming :=
  ⟨rfl, (List.append_nil _).symm, rfl, rfl, rfl, rfl, rfl, rfl, .inl⟩

theorem settle_took (incoming : Incoming) : Took incoming [] incoming.settle :=
  ⟨rfl, (List.append_nil _).symm, rfl, rfl, rfl, rfl, rfl, rfl, fun isOver => Bool.or_eq_true_iff.mp isOver⟩

theorem take_took (incoming : Incoming) : Took incoming incoming.take.2 incoming.take.1 :=
  ⟨rfl, rfl, (List.take_append_drop _ _).symm, rfl, rfl, rfl, rfl, rfl, .inl⟩

theorem Took.arm (took : Took incoming bytes next) (armed : Bool) : Took incoming bytes { next with armed } :=
  ⟨took.body, took.read, took.unread, took.extra, took.fin, took.reset, took.told, took.silent, took.exhausted⟩

theorem settle_over (incoming : Incoming) (finished : incoming.settle.streamFinished = true) :
    incoming.settle.exhausted = true := Bool.or_eq_true_iff.mpr (.inr finished)

theorem recvBody_cases (incoming : Incoming) (reports : incoming.reset = true → incoming.silent = false) :
    (∃ error next, incoming.recvBody = (next, .error error) ∧ error ≠ .done ∧ incoming.reset = true ∧
      Took incoming [] next) ∨
    (∃ next, incoming.recvBody = (next, .error .done) ∧ incoming.reset = false ∧ incoming.unread = [] ∧
      next.armed = true ∧ (next.streamFinished = true → next.exhausted = true) ∧ Took incoming [] next) ∨
    ∃ bytes next, incoming.recvBody = (next, .ok bytes) ∧ incoming.unread ≠ [] ∧ Took incoming bytes next ∧
      (next.armed = true ∨ next.streamReadable = true) ∧
      (incoming.armed = false → next.armed = true → next.streamReadable = false) := by
  by_cases reset : incoming.reset = true
  · left
    rw [recvBody, if_pos reset, reports reset]
    exact ⟨_, _, rfl, nofun, reset, settle_took incoming⟩
  · right
    have alive : incoming.reset = false := Bool.eq_false_iff.mpr reset
    rw [recvBody, if_neg reset]
    by_cases empty : incoming.unread.isEmpty = true
    · left
      rw [if_pos empty]
      exact ⟨_, rfl, alive, List.isEmpty_iff.mp empty, rfl, settle_over incoming, (settle_took incoming).arm true⟩
    · right
      rw [if_neg empty]
      have took := (take_took incoming).trans (settle_took incoming.take.1)
      rw [List.append_nil] at took
      refine ⟨_, _, rfl, fun none => empty (List.isEmpty_iff.mpr none), took.arm _, ?_, fun before after => ?_⟩
      · show (incoming.armed || !incoming.take.1.settle.streamReadable) = true ∨
          incoming.take.1.settle.streamReadable = true
        cases incoming.take.1.settle.streamReadable <;> simp
      · have known : (incoming.armed || !incoming.take.1.settle.streamReadable) = true := after
        rw [before, Bool.false_or, Bool.not_eq_true'] at known
        exact known

end Incoming

def incomingHttp3 : Http3 Incoming Unit where
  recvBody incoming _ := incoming.recvBody
  streamReadable incoming _ := incoming.streamReadable
  streamFinished incoming _ := incoming.streamFinished
  streamShutdown incoming _ _ _ := incoming
  sendResponseWithPriority incoming _ _ _ := (incoming, .error .done)
  sendAdditionalHeadersWithPriority incoming _ _ _ := (incoming, .error .done)
  sendBody incoming _ _ _ := (incoming, .error .done)
  sendRequest incoming _ _ := (incoming, .error .done)
  peerSettingsRaw _ := none
  close incoming := incoming
  extractFlowId _ _ := none

/-- What happens on the way in of a stream. `data`, `finished` and `resetEvent` are events of the connection,
`arrive`, `fin` and `reset` what the peer does, and `recv` and `hangUp` what the application does.
With `sentFin` the writing side has sent its FIN. -/
inductive InboundOp where
  | arrive (bytes : List UInt8) (extra : Bool)
  | fin
  | reset
  | data (amounts : List Nat) (silent : Bool)
  | finished
  | resetEvent
  | ready (index : Nat) (amounts : List Nat) (silent : Bool)
  | recv
  | hangUp
  | sentFin

namespace H3Driver

abbrev Reader := H3Driver Incoming Unit

section Model

variable {driver next : Reader} {streamId link : Nat}

def incoming (driver : Reader) (change : Incoming → Incoming) : Reader := { driver with conn := change driver.conn }

/-- The answers of `recv_body` during a call. -/
def answering (driver : Reader) (amounts : List Nat) (silent : Bool) : Reader :=
  driver.incoming fun incoming => { incoming with amounts, silent }

def inboundStep (streamId link : Nat) (driver : Reader) : InboundOp → Option Reader
  | .arrive bytes extra => some (driver.incoming (·.arrive bytes extra))
  | .fin => some (driver.incoming fun incoming => { incoming with fin := incoming.fin || !incoming.reset })
  | .reset => some (driver.incoming (·.resetStream))
  | .data amounts silent =>
    if driver.conn.canData then
      let driver := (driver.answering amounts silent).incoming fun incoming => { incoming.settle with armed := false }
      some (driver.processReadEvent incomingHttp3 streamId .data).1
    else some driver
  | .finished =>
    if driver.conn.canFinish then
      let driver := driver.incoming fun incoming => { incoming.settle with told := true }
      some (driver.processReadEvent incomingHttp3 streamId .finished).1
    else some driver
  | .resetEvent =>
    if driver.conn.reset then some (driver.processReadEvent incomingHttp3 streamId (.reset 0)).1 else some driver
  | .ready index amounts silent =>
    match driver.waitingStreams[index]? with
    | some (.upstream ..) => ((driver.answering amounts silent).upstreamReady incomingHttp3 index).map Prod.fst
    | _ => some driver
  | .recv => some (driver.updateInbound link .recv)
  | .hangUp => some (driver.updateInbound link .close)
  | .sentFin =>
    match driver.streamMap streamId with
    | none => some driver
    | some ctx =>
      if ctx.finSent then some driver
      -- The stream is completed.
      else if ctx.finRecv then some (driver.finishStream incomingHttp3 streamId none none)
      else some (driver.setStream streamId (some { ctx with finSent := true }))

def inboundMachine (streamId link : Nat) : Machine Reader InboundOp := ⟨inboundStep streamId link⟩

def endWaits (streamId link : Nat) (driver : Reader) : Bool :=
  (driver.streamMap streamId).any fun ctx => ctx.finRecv && ctx.send.isNone && !(driver.inbound link).closed

/-- `recv_body` reports that a stream was reset, and the writing side does not end before the body does. -/
def Regular (streamId link : Nat) (driver : Reader) : InboundOp → Prop
  | .data _ silent => driver.conn.reset = true → silent = false
  | .ready _ _ silent => driver.conn.reset = true → silent = false
  | .sentFin => driver.endWaits streamId link = false
  | _ => True

instance (streamId link : Nat) (driver : Reader) (op : InboundOp) : Decidable (Regular streamId link driver op) := by
  rcases op with ⟨⟩
  case data silent => exact inferInstanceAs (Decidable (driver.conn.reset = true → silent = false))
  case ready silent => exact inferInstanceAs (Decidable (driver.conn.reset = true → silent = false))
  case sentFin => exact inferInstanceAs (Decidable (driver.endWaits streamId link = false))
  all_goals exact .isTrue trivial


end Model

variable {incoming next : Incoming} {channel : Channel InboundFrame} {ctx : StreamCtx Unit} {streamId : Nat}

theorem readLoop_closed (closed : channel.closed = true) (slots : Nat) (events : List Event) :
    readLoop incomingHttp3 ctx streamId slots incoming channel events =
      ⟨incoming, channel, events, .done (ctx.finSent && ctx.finRecv)⟩ := by
  rw [readLoop.eq_def]
  dsimp only
  rw [closed, if_pos rfl]

theorem readLoop_ended (opens : channel.closed = false) (finRecv : ctx.finRecv = true) (slots : Nat)
    (events : List Event) : readLoop incomingHttp3 ctx streamId slots incoming channel events =
      if slots = 0 then ⟨incoming, channel, events, .blocked⟩
      else ⟨incoming, channel.send ⟨[], true⟩, events, .done ctx.finSent⟩ := by
  rw [readLoop.eq_def]
  dsimp only
  rw [opens, if_neg Bool.false_ne_true, finRecv, Bool.true_or, if_pos rfl]
  cases slots with
  | zero => rfl
  | succ slots => rfl

/-- Where the loop of `process_h3_data` leaves an open channel before the peer's end was seen. -/
def Ends (incoming next : Incoming) : StreamStatus → Prop
  | .done false => incoming.reset = false ∧ next.unread = [] ∧ (next.armed = true ∨ next.streamFinished = true) ∧
      (next.streamFinished = true → next.exhausted = true)
  | .done true => incoming.reset = true
  | .blocked => next.armed = false

theorem ends_of_reset {middle : Incoming} {status : StreamStatus} (same : middle.reset = incoming.reset)
    (ends : Ends middle next status) : Ends incoming next status := by
  cases status with
  | blocked => exact ends
  | done close =>
    cases close with
    | true => exact same.symm.trans ends
    | false => exact ⟨same.symm.trans ends.1, ends.2⟩

/-- What is read goes to the channel in frames without FIN, and the result says how the reading ends. -/
structure Reads (incoming : Incoming) (channel : Channel InboundFrame) (reading : Reading Incoming) : Prop where
  carried : ∃ datas : List (List UInt8),
    reading.channel = { channel with queue := channel.queue ++ datas.map (⟨·, false⟩) } ∧
    incoming.Took datas.flatten reading.conn
  ends : Ends incoming reading.conn reading.status

theorem readLoop_reads (streamId slots : Nat) (events : List Event) (opens : channel.closed = false)
    (unended : ctx.finRecv = false) (reports : incoming.reset = true → incoming.silent = false)
    (quiet : incoming.armed = true → incoming.streamReadable = false)
    (edge : slots = 0 → incoming.armed = true ∨ incoming.streamReadable = true ∨ incoming.streamFinished = true) :
    Reads incoming channel (readLoop incomingHttp3 ctx streamId slots incoming channel events) := by
  induction slots generalizing incoming channel events with
  | zero =>
    rw [readLoop, if_neg (Bool.eq_false_iff.mp opens)]
    rw [unended, Bool.false_or]
    have nothing : ∃ datas : List (List UInt8),
        channel = { channel with queue := channel.queue ++ datas.map (⟨·, false⟩) } ∧
          incoming.Took datas.flatten incoming := by
      refine ⟨[], ?_, incoming.took_nothing⟩
      rw [List.map_nil, List.append_nil]
    split
    · rename_i readable
      refine ⟨nothing, ?_⟩
      cases armed : incoming.armed with
      | false => exact armed
      | true =>
        have unreadable := quiet armed
        rw [show incoming.streamReadable = true from readable] at unreadable
        cases unreadable
    · rename_i unreadable
      have drained : ¬incoming.streamReadable = true := unreadable
      have armed : incoming.armed = true ∨ incoming.streamFinished = true :=
        (edge rfl).imp_right fun known => known.resolve_left drained
      rw [Incoming.streamReadable_iff] at drained
      refine ⟨nothing, ?_, ?_, armed, fun finished => ?_⟩
      · exact Bool.eq_false_iff.mpr fun reset => drained (.inr (.inr (.inr reset)))
      · exact Classical.not_not.mp fun unread => drained (.inl unread)
      · rcases incoming.streamFinished_iff.mp finished with reset | ⟨fin, _⟩
        · exact absurd (.inr (.inr (.inr reset))) drained
        · exact Classical.not_not.mp fun fresh =>
            drained (.inr (.inr (.inl ⟨fin, Bool.eq_false_iff.mpr fresh⟩)))
  | succ slots ih =>
    rw [readLoop, if_neg (Bool.eq_false_iff.mp opens)]
    rw [if_neg (Bool.eq_false_iff.mp unended)]
    rw [show incomingHttp3.recvBody incoming streamId = incoming.recvBody from rfl]
    have same : channel = { channel with queue := channel.queue ++ [].map (⟨·, false⟩ : List UInt8 → InboundFrame) } := by
      rw [List.map_nil, List.append_nil]
    rcases incoming.recvBody_cases reports with
      ⟨error, next, answer, other, reset, took⟩ | ⟨next, answer, alive, empty, armed, isOver, took⟩ |
      ⟨bytes, next, answer, someBytes, took, known, unarmedQuiet⟩
    · rw [answer]
      split
      · rename_i is
        cases is
      · rename_i is
        cases is
        exact absurd rfl other
      · rename_i is
        cases is
        exact ⟨⟨[], same, took⟩, reset⟩
    · rw [answer]
      refine ⟨⟨[], same, took⟩, alive, ?_, .inl armed, isOver⟩
      have unread := took.unread
      rw [empty, List.nil_append] at unread
      exact unread.symm
    · rw [answer]
      have unarmed : incoming.armed = false := by
        cases armed : incoming.armed with
        | false => rfl
        | true =>
          have unreadable := Bool.eq_false_iff.mp (quiet armed)
          exact absurd (incoming.streamReadable_iff.mpr (.inl someBytes)) unreadable
      have stillOpens : (channel.send ⟨bytes, false⟩).closed = false := opens
      have rest := ih (events ++ [.bodyBytesReceived streamId bytes.length false]) stillOpens
        (by rw [took.reset, took.silent]; exact reports) (unarmedQuiet unarmed) (fun _ => known.imp_right .inl)
      obtain ⟨⟨datas, is, tookRest⟩, ends⟩ := rest
      refine ⟨⟨bytes :: datas, ?_, took.trans tookRest⟩, ?_⟩
      · rw [is]
        simp only [Channel.send, List.map_cons, List.append_assoc, List.singleton_append]
      · exact ends_of_reset took.reset ends

end H3Driver

end Quiche.Http3Driver
