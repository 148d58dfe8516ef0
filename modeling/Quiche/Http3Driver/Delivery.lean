import Mathlib.Data.List.Perm.Basic
import Quiche.Http3Driver.Inbound

namespace Quiche.Http3Driver

open Data

def upstreams (waiting : List WaitForStream) : List WaitForStream := waiting.filter fun
    | .upstream .. => true
    | .downstream .. => false

theorem upstreams_append (waiting later : List WaitForStream) :
    upstreams (waiting ++ later) = upstreams waiting ++ upstreams later := List.filter_append _ _

theorem upstreams_eraseIdx {waiting : List WaitForStream} {index streamId chan : Nat} {only : WaitForStream}
    (found : waiting[index]? = some (.upstream streamId chan)) (one : upstreams waiting = [only]) :
    only = .upstream streamId chan ∧ upstreams (waiting.eraseIdx index) = [] := by
  obtain ⟨inside, is⟩ := List.getElem?_eq_some_iff.mp found
  have perm := (List.getElem_cons_eraseIdx_perm inside).filter fun
    | WaitForStream.upstream .. => true
    | .downstream .. => false
  rw [is] at perm
  have split : List.Perm (.upstream streamId chan :: upstreams (waiting.eraseIdx index)) [only] := by
    rw [← one]
    exact perm
  have length := split.length_eq
  have empty : upstreams (waiting.eraseIdx index) = [] := by
    rw [List.length_cons, List.length_singleton] at length
    exact List.length_eq_zero_iff.mp (by omega)
  rw [empty] at split
  have same := List.perm_singleton.mp split
  exact ⟨(List.cons.inj same).1.symm, empty⟩

section Invariant

variable {incoming next : Incoming} {channel after : Channel InboundFrame} {ctx : StreamCtx Unit}
  {stream : Option (StreamCtx Unit)} {waiting : List WaitForStream} {streamId link : Nat}

/-- The body frame with FIN was sent. -/
def Channel.ended (channel : Channel InboundFrame) : Prop := (⟨[], true⟩ : InboundFrame) ∈ channel.sent

/-- What was sent on the channel is what was read, and the FIN comes behind the whole body. -/
structure Delivers (incoming : Incoming) (channel : Channel InboundFrame) : Prop where
  arrived : incoming.reset = false → incoming.body = incoming.read ++ incoming.unread
  read : List.IsPrefix incoming.read incoming.body
  discarded : incoming.reset = true → incoming.unread = []
  settled : incoming.exhausted = true → incoming.streamFinished = true
  carried : ∃ datas : List (List UInt8), datas.flatten = incoming.read ∧ (channel.sent = datas.map (⟨·, false⟩) ∨
      channel.sent = datas.map (⟨·, false⟩) ++ [⟨[], true⟩] ∧ incoming.whole = true)

/-- The context of the stream agrees with the transport and with the channel. -/
structure Follows (streamId link : Nat) (incoming : Incoming) (channel : Channel InboundFrame)
    (waiting : List WaitForStream) (ctx : StreamCtx Unit) : Prop where
  sending : channel.sending = true
  placed : ctx.send = some link ∧ upstreams waiting = [] ∨
    ctx.send = none ∧ upstreams waiting = [.upstream streamId link]
  ended : channel.closed = false → ctx.finRecv = true →
    incoming.whole = true ∧ incoming.exhausted = true ∧ (ctx.send = some link → channel.ended)
  unended : channel.ended → ctx.finRecv = true ∧ ctx.send = some link
  armed : channel.closed = false → ctx.finRecv = false → incoming.reset = false → ctx.send = some link →
    incoming.armed = true ∨ incoming.streamFinished = true
  waits : channel.closed = false → ctx.finRecv = false → ctx.send = none → incoming.armed = false
  told : incoming.told = true → ctx.finRecv = true

/-- What went to the channel is the body in order, and the context knows how far it got. -/
structure Delivering (streamId link : Nat) (incoming : Incoming) (channel : Channel InboundFrame)
    (waiting : List WaitForStream) (stream : Option (StreamCtx Unit)) : Prop where
  delivers : Delivers incoming channel
  follows : ∀ ctx, stream = some ctx → Follows streamId link incoming channel waiting ctx
  gone : stream = none → channel.closed = true ∨ incoming.reset = true ∨ channel.ended
  futures : ∀ pending ∈ upstreams waiting, pending = .upstream streamId link

theorem Follows.futures (follows : Follows streamId link incoming channel waiting ctx) :
    ∀ pending ∈ upstreams waiting, pending = .upstream streamId link := by
  rcases follows.placed with ⟨_, nowhere⟩ | ⟨_, waits⟩
  · rw [nowhere]
    nofun
  · rw [waits]
    exact fun pending is => List.mem_singleton.mp is

namespace Incoming

theorem whole_iff (incoming : Incoming) : incoming.whole = true ↔
    incoming.reset = false ∧ incoming.fin = true ∧ incoming.unread = [] ∧ incoming.extra = false := by
  rw [whole, Bool.and_eq_true, streamFinished_iff, Bool.not_eq_true']
  constructor
  · rintro ⟨reset | rest, alive⟩
    · rw [alive] at reset
      cases reset
    · exact ⟨alive, rest⟩
  · rintro ⟨alive, rest⟩
    exact ⟨.inr rest, alive⟩

theorem whole_of_finished (finished : incoming.streamFinished = true) (alive : incoming.reset = false) :
    incoming.whole = true := by
  rw [whole, finished, alive]
  rfl

theorem Took.whole {bytes : List UInt8} (took : Took incoming bytes next) (whole : incoming.whole = true) :
    next.whole = true := whole_of_finished (took.streamFinished (Bool.and_eq_true_iff.mp whole).1)
    (took.reset.trans (incoming.whole_iff.mp whole).1)

/-- The transport goes on by itself: bytes arrive, none is read. -/
structure Goes (incoming next : Incoming) : Prop where
  arrived : (incoming.reset = false → incoming.body = incoming.read ++ incoming.unread) →
    next.reset = false → next.body = next.read ++ next.unread
  body : List.IsPrefix incoming.body next.body
  read : next.read = incoming.read
  discarded : (incoming.reset = true → incoming.unread = []) → next.reset = true → next.unread = []
  settled : (incoming.exhausted = true → incoming.streamFinished = true) → next.exhausted = true →
    next.streamFinished = true
  whole : incoming.whole = true → next.whole = true
  reset : incoming.reset = true → next.reset = true
  finished : incoming.streamFinished = true → next.streamFinished = true

theorem Took.goes (took : Took incoming [] next) : Goes incoming next := by
  have read : next.read = incoming.read := took.read.trans (List.append_nil _)
  have unread : next.unread = incoming.unread := took.unread.symm
  refine ⟨fun arrived alive => ?_, took.body ▸ List.prefix_refl _, read, fun discarded reset => ?_,
    fun settled isOver => ?_,
    took.whole, took.reset.trans, took.streamFinished⟩
  · rw [took.body, read, unread]
    exact arrived (took.reset ▸ alive)
  · rw [unread]
    exact discarded (took.reset ▸ reset)
  · rcases took.exhausted isOver with before | finished
    · exact took.streamFinished (settled before)
    · exact finished

theorem Goes.with (goes : incoming.Goes next) (told armed : Bool) (amounts : List Nat) (silent : Bool) :
    incoming.Goes { next with told, armed, amounts, silent } :=
  ⟨goes.arrived, goes.body, goes.read, goes.discarded, goes.settled, goes.whole, goes.reset, goes.finished⟩

theorem arrive_goes (incoming : Incoming) (bytes : List UInt8) (extra : Bool) :
    incoming.Goes (incoming.arrive bytes extra) := by
  rw [arrive]
  by_cases reset : incoming.reset = true
  · rw [if_pos reset]
    exact (took_nothing incoming).goes
  · rw [if_neg reset]
    by_cases fin : incoming.fin = true
    · rw [if_pos fin]
      have finished : incoming.streamFinished = true →
          { incoming with extra := incoming.extra && extra }.streamFinished = true := by
        rw [streamFinished_iff, streamFinished_iff]
        rintro (before | ⟨ended, empty, exhausts⟩)
        · exact absurd before reset
        · exact .inr ⟨ended, empty, by rw [exhausts, Bool.false_and]⟩
      refine ⟨id, List.prefix_refl _, rfl, id, fun settled isOver => finished (settled isOver), fun whole => ?_,
        id, finished⟩
      exact whole_of_finished (finished (Bool.and_eq_true_iff.mp whole).1) (Bool.eq_false_iff.mpr reset)
    · rw [if_neg fin]
      have unfinished : incoming.streamFinished = true → False := fun finished => by
        rcases incoming.streamFinished_iff.mp finished with before | ⟨ended, _⟩
        · exact reset before
        · exact fin ended
      refine ⟨fun arrived alive => ?_, List.prefix_append _ _, rfl, fun _ before => absurd before reset,
        fun settled isOver => absurd (settled isOver) unfinished, fun whole => ?_, id,
          fun finished => absurd finished unfinished⟩
      · rw [arrived (Bool.eq_false_iff.mpr reset), List.append_assoc]
      · exact absurd (Bool.and_eq_true_iff.mp whole).1 unfinished

theorem fin_goes (incoming : Incoming) : incoming.Goes { incoming with fin := incoming.fin || !incoming.reset } := by
  have finished : incoming.streamFinished = true →
      { incoming with fin := incoming.fin || !incoming.reset }.streamFinished = true := by
    rw [streamFinished_iff, streamFinished_iff]
    rintro (reset | ⟨fin, rest⟩)
    · exact .inl reset
    · exact .inr ⟨by rw [fin, Bool.true_or], rest⟩
  refine ⟨id, List.prefix_refl _, rfl, id, fun settled isOver => finished (settled isOver), fun whole => ?_, id, finished⟩
  exact whole_of_finished (finished (Bool.and_eq_true_iff.mp whole).1) (incoming.whole_iff.mp whole).1

theorem resetStream_goes (incoming : Incoming) : incoming.Goes incoming.resetStream := by
  rw [resetStream]
  by_cases finished : incoming.streamFinished = true
  · rw [if_pos finished]
    exact (took_nothing incoming).goes
  · rw [if_neg finished]
    refine ⟨nofun, List.prefix_refl _, rfl, fun _ _ => rfl, fun _ _ => rfl, fun whole => ?_, fun _ => rfl, fun _ => rfl⟩
    exact absurd (Bool.and_eq_true_iff.mp whole).1 finished

end Incoming

theorem Delivers.goes (delivers : Delivers incoming channel) (goes : incoming.Goes next)
    (same : after.sent = channel.sent) : Delivers next after where
  arrived := goes.arrived delivers.arrived
  read := goes.read ▸ delivers.read.trans goes.body
  discarded := goes.discarded delivers.discarded
  settled := goes.settled delivers.settled
  carried := by
    obtain ⟨datas, flat, is⟩ := delivers.carried
    rw [goes.read, same]
    exact ⟨datas, flat, is.imp_right fun known => ⟨known.1, goes.whole known.2⟩⟩

theorem Follows.goes (follows : Follows streamId link incoming channel waiting ctx) (goes : incoming.Goes next)
    (exhausted : incoming.exhausted = true → next.exhausted = true) (armed : next.armed = incoming.armed)
    (told : next.told = true → ctx.finRecv = true)
    (same : after.sent = channel.sent) (sending : after.sending = channel.sending)
    (closed : channel.closed = true → after.closed = true) : Follows streamId link next after waiting ctx := by
  have opens : after.closed = false → channel.closed = false := fun open_ =>
    Bool.eq_false_iff.mpr fun before => Bool.eq_false_iff.mp open_ (closed before)
  have alive : next.reset = false → incoming.reset = false := fun alive =>
    Bool.eq_false_iff.mpr fun before => Bool.eq_false_iff.mp alive (goes.reset before)
  have ends : after.ended ↔ channel.ended := by rw [Channel.ended, Channel.ended, same]
  refine ⟨sending.trans follows.sending, follows.placed, fun open_ finRecv => ?_,
    fun ended => follows.unended (ends.mp ended),
    fun open_ unended reset send => ?_,
      fun open_ unended send => armed.trans (follows.waits (opens open_) unended send), told⟩
  · obtain ⟨whole, isOver, sent⟩ := follows.ended (opens open_) finRecv
    exact ⟨goes.whole whole, exhausted isOver, fun send => ends.mpr (sent send)⟩
  · rw [armed]
    exact (follows.armed (opens open_) unended (alive reset) send).imp_right goes.finished

theorem Delivering.goes (delivering : Delivering streamId link incoming channel waiting stream)
    (goes : incoming.Goes next)
    (exhausted : incoming.exhausted = true → next.exhausted = true) (armed : next.armed = incoming.armed)
    (told : next.told = incoming.told) (same : after.sent = channel.sent) (sending : after.sending = channel.sending)
    (closed : channel.closed = true → after.closed = true) : Delivering streamId link next after waiting stream where
  delivers := delivering.delivers.goes goes same
  follows ctx is := by
    have follows := delivering.follows ctx is
    exact follows.goes goes exhausted armed (fun is => follows.told (told.symm.trans is)) same sending closed
  gone is := by
    rw [Channel.ended, same]
    exact (delivering.gone is).imp closed (Or.imp_left goes.reset)
  futures := delivering.futures

theorem Delivers.send_end (delivers : Delivers incoming channel)
    (fresh : ¬channel.ended) (whole : incoming.whole = true) : Delivers incoming (channel.send ⟨[], true⟩) := by
  have sent : (channel.send ⟨[], true⟩).sent = channel.sent ++ [⟨[], true⟩] := (List.append_assoc _ _ _).symm
  obtain ⟨datas, flat, order⟩ := delivers.carried
  refine ⟨delivers.arrived, delivers.read, delivers.discarded, delivers.settled, datas, flat, .inr ⟨?_, whole⟩⟩
  rcases order with all | ⟨last, _⟩
  · rw [sent, all]
  · refine absurd ?_ fresh
    rw [Channel.ended, last]
    exact List.mem_append_right _ (List.mem_singleton.mpr rfl)

theorem Delivers.took {datas : List (List UInt8)} (delivers : Delivers incoming channel) (fresh : ¬channel.ended)
    (took : incoming.Took datas.flatten next) :
    Delivers next { channel with queue := channel.queue ++ datas.map (⟨·, false⟩) } where
  arrived alive := by
    rw [took.body, delivers.arrived (took.reset ▸ alive), took.unread, took.read, List.append_assoc]
  read := by
    rw [took.body, took.read]
    cases reset : incoming.reset with
    | false =>
      rw [delivers.arrived reset, took.unread, ← List.append_assoc]
      exact List.prefix_append _ _
    | true =>
      have exhausts := took.unread
      rw [delivers.discarded reset] at exhausts
      rw [(List.append_eq_nil_iff.mp exhausts.symm).1, List.append_nil]
      exact delivers.read
  discarded reset := by
    have exhausts := took.unread
    rw [delivers.discarded (took.reset ▸ reset)] at exhausts
    exact (List.append_eq_nil_iff.mp exhausts.symm).2
  settled isOver := by
    rcases took.exhausted isOver with before | finished
    · exact took.streamFinished (delivers.settled before)
    · exact finished
  carried := by
    obtain ⟨sent, flat, order⟩ := delivers.carried
    rcases order with all | ⟨last, _⟩
    · refine ⟨sent ++ datas, ?_, .inl ?_⟩
      · rw [List.flatten_append, flat, took.read]
      · rw [List.map_append, ← all]
        exact (List.append_assoc _ _ _).symm
    · refine absurd ?_ fresh
      rw [Channel.ended, last]
      exact List.mem_append_right _ (List.mem_singleton.mpr rfl)

theorem fresh_datas {datas : List (List UInt8)} (fresh : ¬channel.ended) :
    ¬{ channel with queue := channel.queue ++ datas.map (⟨·, false⟩) : Channel InboundFrame }.ended := by
  intro ended
  rw [Channel.ended, Channel.sent, ← List.append_assoc] at ended
  rcases List.mem_append.mp ended with before | later
  · exact fresh before
  · obtain ⟨data, _, is⟩ := List.mem_map.mp later
    cases is

end Invariant

namespace H3Driver

variable {driver next : Reader} {ctx : StreamCtx Unit} {streamId link : Nat}

/-- The driver relays the body of the stream to the channel of the link. -/
def Relays (streamId link : Nat) (driver : Reader) : Prop :=
  Delivering streamId link driver.conn (driver.inbound link) driver.waitingStreams (driver.streamMap streamId)

theorem foldl_notify (events : List Event) (driver : Reader) :
    ∃ sent, events.foldl notify driver = { driver with h3EventSender := sent } := by
  induction events generalizing driver with
  | nil => exact ⟨driver.h3EventSender, rfl⟩
  | cons event rest ih =>
    obtain ⟨sent, is⟩ := ih (driver.notify event)
    rw [List.foldl_cons, is, notify]
    split
    · exact ⟨sent, rfl⟩
    · exact ⟨sent, rfl⟩

/-- What the loop of `process_h3_data` leaves in the driver. -/
structure Yields (streamId link : Nat) (driver : Reader) (reading : Reading Incoming) (next : Reader) : Prop where
  conn : next.conn = reading.conn
  channel : next.inbound link = reading.channel
  streams : next.streamMap = driver.streamMap
  waiting : next.waitingStreams = driver.waitingStreams

theorem readStream_some (streamId : Nat) (ctx : StreamCtx Unit) (send : ctx.send = some link)
    (sending : (driver.inbound link).sending = true) :
    ∃ next reading, driver.readStream incomingHttp3 ctx streamId = (next, reading.status) ∧
      readLoop incomingHttp3 ctx streamId ((driver.inbound link).capacity - (driver.inbound link).queue.length)
        driver.conn (driver.inbound link) [] = reading ∧ Yields streamId link driver reading next := by
  have sender : driver.sender ctx = some link := by
    rw [H3Driver.sender, send, Option.filter_some, if_pos sending]
  rw [readStream, sender]
  dsimp only
  generalize readLoop incomingHttp3 ctx streamId _ driver.conn (driver.inbound link) [] = reading
  obtain ⟨sent, notified⟩ := foldl_notify reading.events (driver.updateInbound link fun _ => reading.channel)
  rw [notified]
  exact ⟨_, reading, rfl, rfl, rfl, Function.update_self .., rfl, rfl⟩

theorem readStream_none (send : ctx.send = none) :
    driver.readStream incomingHttp3 ctx streamId = (driver, .done false) := by
  rw [readStream, H3Driver.sender, send]
  rfl

section

variable (present : driver.streamMap streamId = some ctx) (delivers : Delivers driver.conn (driver.inbound link))

include present delivers

theorem finishStream_relays (futures : ∀ pending ∈ upstreams driver.waitingStreams, pending = .upstream streamId link)
    (gone : (driver.inbound link).closed = true ∨ driver.conn.reset = true ∨ (driver.inbound link).ended) :
    (driver.finishStream incomingHttp3 streamId none none).Relays streamId link := by
  have finishes : Finishes incomingHttp3 driver streamId
    none none (driver.finishStream incomingHttp3 streamId none none) := finishStream_some present none none
  generalize driver.finishStream incomingHttp3 streamId none none = next at finishes
  have conn : next.conn = driver.conn := finishes.conn
  obtain ⟨queue, received, closed⟩ := finishes.inbound link
  have sent : (next.inbound link).sent = (driver.inbound link).sent := by
    rw [Channel.sent, Channel.sent, queue, received]
  have absent : next.streamMap streamId = none := by rw [finishes.streams, Function.update_self]
  refine ⟨?_, ?_, fun _ => ?_, finishes.waiting ▸ futures⟩
  · rw [conn]
    refine ⟨delivers.arrived, delivers.read, delivers.discarded, delivers.settled, ?_⟩
    rw [sent]
    exact delivers.carried
  · rw [absent]
    nofun
  · rw [conn, closed, Channel.ended, sent]
    exact gone

theorem relays_of_some (follows : Follows streamId link driver.conn (driver.inbound link) driver.waitingStreams ctx) :
    driver.Relays streamId link := by
  refine ⟨delivers, fun other is => ?_, fun absent => ?_, follows.futures⟩
  · rw [present] at is
    cases is
    exact follows
  · rw [present] at absent
    cases absent

end

theorem blocked_relays (send : ctx.send = some link)
    (nowhere : upstreams driver.waitingStreams = []) (delivers : Delivers driver.conn (driver.inbound link))
    (sending : (driver.inbound link).sending = true) (fresh : ¬(driver.inbound link).ended)
    (ended : ctx.finRecv = true → driver.conn.whole = true ∧ driver.conn.exhausted = true)
    (waits : ctx.finRecv = false → driver.conn.armed = false) (told : driver.conn.told = true → ctx.finRecv = true) :
    ({ driver.setStream streamId (some { ctx with send := none }) with
      waitingStreams := driver.waitingStreams ++
        (ctx.send.map fun chan => .upstream streamId chan).toList } : Reader).Relays
        streamId link := by
  have present : (driver.setStream streamId (some { ctx with send := none })).streamMap streamId =
    some { ctx with send := none } := Function.update_self ..
  refine relays_of_some present delivers ?_
  refine ⟨sending, .inr ⟨rfl, ?_⟩, fun _ finRecv => ?_, fun ended => absurd ended fresh, fun _ _ _ send => ?_,
    fun _ unended _ => waits unended, told⟩
  · rw [send, upstreams_append, nowhere]
    rfl
  · obtain ⟨whole, isOver⟩ := ended finRecv
    exact ⟨whole, isOver, nofun⟩
  · cases send

theorem closed_relays (present : driver.streamMap streamId = some ctx) (closed : (driver.inbound link).closed = true)
    (delivers : Delivers driver.conn (driver.inbound link)) (sending : (driver.inbound link).sending = true)
    (unended : (driver.inbound link).ended → ctx.finRecv = true ∧ ctx.send = some link)
    (placed : ctx.send = some link ∧ upstreams driver.waitingStreams = [] ∨
      ctx.send = none ∧ upstreams driver.waitingStreams = [.upstream streamId link])
    (told : driver.conn.told = true → ctx.finRecv = true) : driver.Relays streamId link := by
  have shut : ¬(driver.inbound link).closed = false := Bool.not_eq_false _ ▸ closed
  exact relays_of_some present delivers ⟨sending, placed, fun open_ => absurd open_ shut, unended,
    fun open_ => absurd open_ shut, fun open_ => absurd open_ shut, told⟩

theorem ended_relays (present : driver.streamMap streamId = some ctx) (finRecv : ctx.finRecv = true)
    (send : ctx.send = some link) (nowhere : upstreams driver.waitingStreams = [])
    (delivers : Delivers driver.conn (driver.inbound link)) (sending : (driver.inbound link).sending = true)
    (ended : (driver.inbound link).ended) (whole : driver.conn.whole = true) (isOver : driver.conn.exhausted = true) :
    driver.Relays streamId link := by
  have unended : ¬ctx.finRecv = false := Bool.not_eq_false _ ▸ finRecv
  exact relays_of_some present delivers ⟨sending, .inl ⟨send, nowhere⟩, fun _ _ => ⟨whole, isOver, fun _ => ended⟩,
    fun _ => ⟨finRecv, send⟩, fun _ is => absurd is unended, fun _ is => absurd is unended, fun _ => finRecv⟩

theorem processH3DataThen_ended (finish : Reader → Result Incoming Unit) (present : driver.streamMap streamId = some ctx)
    (finRecv : ctx.finRecv = true) (delivers : Delivers driver.conn (driver.inbound link))
    (sending : (driver.inbound link).sending = true) (fresh : ¬(driver.inbound link).ended)
    (placed : ctx.send = some link ∧ upstreams driver.waitingStreams = [] ∨
      ctx.send = none ∧ upstreams driver.waitingStreams = [.upstream streamId link])
    (ends : (driver.inbound link).closed = false → driver.conn.whole = true ∧ driver.conn.exhausted = true) :
    (driver.processH3DataThen incomingHttp3 finish streamId).1.Relays streamId link := by
  have unended : ¬ctx.finRecv = false := Bool.not_eq_false _ ▸ finRecv
  rw [processH3DataThen, present]
  dsimp only
  rcases placed with ⟨send, nowhere⟩ | ⟨send, waiting⟩
  · obtain ⟨next, reading, read, looped, yields⟩ := readStream_some streamId ctx send sending
    rw [read]
    have stored : next.streamMap streamId = some ctx := yields.streams ▸ present
    have parted : upstreams next.waitingStreams = [] := yields.waiting ▸ nowhere
    cases closed : (driver.inbound link).closed with
    | true =>
      rw [readLoop_closed closed, finRecv, Bool.and_true] at looped
      subst looped
      have conn : next.conn = driver.conn := yields.conn
      have channel : next.inbound link = driver.inbound link := yields.channel
      have same : Delivers next.conn (next.inbound link) := by
        rw [conn, channel]
        exact delivers
      have shut : (next.inbound link).closed = true := channel ▸ closed
      cases finSent : ctx.finSent with
      | true => exact finishStream_relays stored same (parted ▸ nofun) (.inl shut)
      | false =>
        dsimp only
        rw [finRecv]
        refine closed_relays stored shut same (channel ▸ sending) (fun ended => ?_) (.inl ⟨send, parted⟩) fun _ => finRecv
        have already : (next.inbound link).ended := ended
        rw [channel] at already
        exact absurd already fresh
    | false =>
      obtain ⟨whole, isOver⟩ := ends closed
      rw [readLoop_ended closed finRecv] at looped
      split at looped
      · subst looped
        have conn : next.conn = driver.conn := yields.conn
        have channel : next.inbound link = driver.inbound link := yields.channel
        refine blocked_relays send parted ?_ ?_ ?_ ?_ (fun is => absurd is unended) fun _ => finRecv
        · rw [conn, channel]
          exact delivers
        · rw [channel]
          exact sending
        · rw [channel]
          exact fresh
        · rw [conn]
          exact fun _ => ⟨whole, isOver⟩
      · subst looped
        have conn : next.conn = driver.conn := yields.conn
        have channel : next.inbound link = (driver.inbound link).send ⟨[], true⟩ := yields.channel
        have ended : (next.inbound link).ended := by
          rw [channel]
          exact List.mem_append_right _ (List.mem_append_right _ (List.mem_singleton.mpr rfl))
        have same : Delivers next.conn (next.inbound link) := by
          rw [conn, channel]
          exact delivers.send_end fresh whole
        cases finSent : ctx.finSent with
        | true => exact finishStream_relays stored same (parted ▸ nofun) (.inr (.inr ended))
        | false =>
          dsimp only
          rw [finRecv]
          exact ended_relays stored finRecv send parted same (channel ▸ sending) ended (conn ▸ whole) (conn ▸ isOver)
  · rw [readStream_none send]
    dsimp only
    rw [finRecv]
    refine relays_of_some present delivers ?_
    refine ⟨sending, .inr ⟨send, waiting⟩, fun open_ _ => ?_, fun ended => absurd ended fresh,
      fun _ is => absurd is unended,
      fun _ is => absurd is unended, fun _ => finRecv⟩
    obtain ⟨whole, isOver⟩ := ends open_
    refine ⟨whole, isOver, fun here => ?_⟩
    rw [send] at here
    cases here

theorem processH3Fin_relays (present : driver.streamMap streamId = some ctx) (before : ctx.finRecv = false)
    (delivers : Delivers driver.conn (driver.inbound link)) (sending : (driver.inbound link).sending = true)
    (fresh : ¬(driver.inbound link).ended) (placed : ctx.send = some link ∧ upstreams driver.waitingStreams = [] ∨
      ctx.send = none ∧ upstreams driver.waitingStreams = [.upstream streamId link])
    (ends : (driver.inbound link).closed = false → driver.conn.whole = true ∧ driver.conn.exhausted = true) :
    (driver.processH3Fin incomingHttp3 streamId).1.Relays streamId link := by
  rw [processH3Fin, present, Option.filter_some, before]
  rw [if_pos (Bool.not_false : (!false) = true)]
  dsimp only
  obtain ⟨sent, notified⟩ := foldl_notify [.bodyBytesReceived streamId 0 true]
    (driver.setStream streamId (some { ctx with finRecv := true }))
  rw [List.foldl_cons, List.foldl_nil] at notified
  rw [notified]
  have stored : (driver.setStream streamId (some { ctx with finRecv := true })).streamMap streamId =
      some { ctx with finRecv := true } := Function.update_self ..
  exact processH3DataThen_ended _ stored rfl delivers sending fresh placed ends

theorem processH3Fin_finished (ended : ∀ ctx, driver.streamMap streamId = some ctx → ctx.finRecv = true) :
    driver.processH3Fin incomingHttp3 streamId = (driver, .ok ()) := by
  rw [processH3Fin]
  cases present : driver.streamMap streamId with
  | none => rfl
  | some ctx =>
    rw [Option.filter_some, ended ctx present]
    rfl

theorem processH3Data_closed (present : driver.streamMap streamId = some ctx)
    (closed : (driver.inbound link).closed = true) (relays : driver.Relays streamId link) :
    (driver.processH3Data incomingHttp3 streamId).1.Relays streamId link := by
  have stays : ∃ next close, driver.readStream incomingHttp3 ctx streamId = (next, .done close) ∧
      next.streamMap = driver.streamMap ∧ (next.inbound link).closed = true ∧ next.Relays streamId link := by
    have follows := relays.follows ctx present
    rcases follows.placed with ⟨send, _⟩ | ⟨send, _⟩
    · obtain ⟨next, reading, read, looped, yields⟩ := readStream_some streamId ctx send follows.sending
      rw [readLoop_closed closed] at looped
      subst looped
      have channel : next.inbound link = driver.inbound link := yields.channel
      refine ⟨next, _, read, yields.streams, channel ▸ closed, ?_⟩
      rw [Relays, yields.conn, channel, yields.streams, yields.waiting]
      exact relays
    · exact ⟨driver, _, readStream_none send, rfl, closed, relays⟩
  obtain ⟨next, close, read, streams, shut, relaying⟩ := stays
  have stored : next.streamMap streamId = some ctx := streams ▸ present
  have follows := relaying.follows ctx stored
  rw [processH3Data, processH3DataThen, present]
  dsimp only
  rw [read]
  cases close with
  | true => exact finishStream_relays stored relaying.delivers relaying.futures (.inl shut)
  | false =>
    dsimp only
    split
    · rename_i ends
      have before : ctx.finRecv = false := (Bool.not_eq_true' _).mp (Bool.and_eq_true_iff.mp ends).1
      have fresh : ¬(next.inbound link).ended := fun ended => by
        have finRecv := (follows.unended ended).1
        rw [before] at finRecv
        cases finRecv
      exact processH3Fin_relays stored before relaying.delivers follows.sending fresh follows.placed fun still =>
        absurd still (Bool.not_eq_false _ ▸ shut)
    · exact relaying

theorem processH3Data_relays (present : driver.streamMap streamId = some ctx) (before : ctx.finRecv = false)
    (send : ctx.send = some link) (nowhere : upstreams driver.waitingStreams = [])
    (opens : (driver.inbound link).closed = false) (delivers : Delivers driver.conn (driver.inbound link))
    (sending : (driver.inbound link).sending = true) (fresh : ¬(driver.inbound link).ended)
    (untold : driver.conn.told = false) (unarmed : driver.conn.armed = false)
    (reports : driver.conn.reset = true → driver.conn.silent = false)
    (edge : (driver.inbound link).capacity - (driver.inbound link).queue.length = 0 →
      driver.conn.streamReadable = true ∨ driver.conn.streamFinished = true) :
    (driver.processH3Data incomingHttp3 streamId).1.Relays streamId link := by
  obtain ⟨next, reading, read, looped, yields⟩ := readStream_some streamId ctx send sending
  have reads := readLoop_reads streamId ((driver.inbound link).capacity - (driver.inbound link).queue.length)
    [] opens before reports (fun armed => by rw [unarmed] at armed; cases armed) fun full => .inr (edge full)
  rw [looped] at reads
  obtain ⟨⟨datas, extended, took⟩, ends⟩ := reads
  have stored : next.streamMap streamId = some ctx := yields.streams ▸ present
  have parted : upstreams next.waitingStreams = [] := yields.waiting ▸ nowhere
  have channel := yields.channel.trans extended
  rw [← yields.conn] at took ends
  have same : Delivers next.conn (next.inbound link) := by
    rw [channel]
    exact delivers.took fresh took
  have goesOn : ¬(next.inbound link).ended := by
    rw [channel]
    exact fresh_datas fresh
  have sends : (next.inbound link).sending = true := channel ▸ sending
  have told : next.conn.told = true → ctx.finRecv = true := by
    rw [took.told, untold]
    nofun
  rw [processH3Data, processH3DataThen, present]
  dsimp only
  rw [read]
  cases status : reading.status with
  | blocked =>
    rw [status] at ends
    refine blocked_relays send parted same sends goesOn (fun is => ?_) (fun _ => ends) told
    rw [before] at is
    cases is
  | done close =>
    rw [status] at ends
    cases close with
    | true => exact finishStream_relays stored same (parted ▸ nofun) (.inr (.inl (took.reset.trans ends)))
    | false =>
      obtain ⟨alive, empty, armed, isOver⟩ := ends
      dsimp only
      rw [before, Bool.not_false, Bool.true_and]
      split
      · rename_i finished
        have whole := Incoming.whole_of_finished finished (took.reset.trans alive)
        exact processH3Fin_relays stored before same sends goesOn (.inl ⟨send, parted⟩) fun _ => ⟨whole, isOver finished⟩
      · refine relays_of_some stored same ?_
        refine ⟨sends, .inl ⟨send, parted⟩, fun _ is => ?_, fun ended => absurd ended goesOn, fun _ _ _ _ => armed,
          fun _ _ waits => ?_, told⟩
        · rw [before] at is
          cases is
        · rw [send] at waits
          cases waits

theorem forwardSettings_ok (driver : Reader) : driver.forwardSettings incomingHttp3 = (driver, .ok ()) := by
  rw [forwardSettings]
  split
  · rfl
  · rfl

theorem processReadEvent_data (driver : Reader) :
    driver.processReadEvent incomingHttp3 streamId .data = driver.processH3Data incomingHttp3 streamId := by
  rw [processReadEvent, forwardSettings_ok]

theorem processReadEvent_finished (driver : Reader) :
    driver.processReadEvent incomingHttp3 streamId .finished = driver.processH3Fin incomingHttp3 streamId := by
  rw [processReadEvent, forwardSettings_ok]

section

variable (relays : driver.Relays streamId link)

include relays

theorem Relays.incoming {change : Incoming → Incoming}
    (goes : driver.conn.Goes (change driver.conn)) (exhausted : driver.conn.exhausted = true →
      (change driver.conn).exhausted = true)
    (armed : (change driver.conn).armed = driver.conn.armed) (told : (change driver.conn).told = driver.conn.told) :
    (driver.incoming change).Relays streamId link := Delivering.goes relays goes exhausted armed told rfl rfl id

theorem data_relays (amounts : List Nat) {silent : Bool}
    (reports : driver.conn.reset = true → silent = false)
    (stepped : inboundStep streamId link driver (.data amounts silent) = some next) : next.Relays streamId link := by
  rw [inboundStep] at stepped
  split at stepped
  · rename_i can
    rw [Incoming.canData, Bool.and_eq_true, Bool.and_eq_true, Bool.not_eq_true'] at can
    obtain ⟨⟨armed, readable⟩, unfinished⟩ := can
    simp only [processReadEvent_data] at stepped
    cases stepped
    generalize is : ((driver.answering amounts silent).incoming fun incoming => { incoming.settle with armed := false }) =
      middle
    have goes : driver.conn.Goes middle.conn := by
      subst is
      exact (Incoming.settle_took driver.conn).goes.with driver.conn.told false amounts silent
    have exhausted : driver.conn.exhausted = true → middle.conn.exhausted = true := by
      rw [unfinished]
      nofun
    have streams : middle.streamMap = driver.streamMap := by rw [← is]; rfl
    have inbound : middle.inbound = driver.inbound := by rw [← is]; rfl
    have waiting : middle.waitingStreams = driver.waitingStreams := by rw [← is]; rfl
    have told : middle.conn.told = driver.conn.told := by rw [← is]; rfl
    have delivers : Http3Driver.Delivers middle.conn (middle.inbound link) := by
      rw [inbound]
      exact relays.delivers.goes goes rfl
    cases present : driver.streamMap streamId with
    | none =>
      have absent : middle.streamMap streamId = none := streams ▸ present
      rw [processH3Data, processH3DataThen, absent]
      refine ⟨delivers, ?_, fun _ => ?_, waiting ▸ relays.futures⟩
      · rw [absent]
        nofun
      · rw [inbound]
        exact (relays.gone present).imp_right (Or.imp_left goes.reset)
    | some ctx =>
      have stored : middle.streamMap streamId = some ctx := streams ▸ present
      have follows := relays.follows ctx present
      cases closed : (driver.inbound link).closed with
      | true =>
        refine processH3Data_closed stored (inbound ▸ closed) (closed_relays stored ?_ delivers ?_ ?_ ?_ ?_)
        · rw [inbound]
          exact closed
        · rw [inbound]
          exact follows.sending
        · rw [inbound]
          exact follows.unended
        · rw [waiting]
          exact follows.placed
        · rw [told]
          exact follows.told
      | false =>
        have before : ctx.finRecv = false := by
          refine Bool.eq_false_iff.mpr fun finRecv => ?_
          have isOver := (follows.ended closed finRecv).2.1
          rw [unfinished] at isOver
          cases isOver
        have fresh : ¬(driver.inbound link).ended := fun ended => by
          have finRecv := (follows.unended ended).1
          rw [before] at finRecv
          cases finRecv
        rcases follows.placed with ⟨send, nowhere⟩ | ⟨send, _⟩
        · refine processH3Data_relays stored before send ?_ ?_ delivers ?_ ?_ ?_ ?_ ?_ fun _ => ?_
          · rw [waiting]
            exact nowhere
          · rw [inbound]
            exact closed
          · rw [inbound]
            exact follows.sending
          · rw [inbound]
            exact fresh
          · rw [told]
            exact Bool.eq_false_iff.mpr fun is => Bool.eq_false_iff.mp before (follows.told is)
          · rw [← is]
            rfl
          · rw [← is]
            exact reports
          · cases finished : middle.conn.streamFinished with
            | true => exact .inr rfl
            | false =>
              left
              rw [Incoming.streamReadable_iff] at readable ⊢
              rw [← is] at finished ⊢
              have same : (driver.conn.exhausted || driver.conn.streamFinished) = driver.conn.exhausted := by
                rw [show driver.conn.streamFinished = false from finished, Bool.or_false]
              refine readable.imp_right (Or.imp_right (Or.imp_left fun fresh => ⟨fresh.1, ?_⟩))
              exact same.trans fresh.2
        · have unarmed := follows.waits closed before send
          rw [armed] at unarmed
          cases unarmed
  · cases stepped
    exact relays

theorem finished_relays
    (stepped : inboundStep streamId link driver .finished = some next) : next.Relays streamId link := by
  rw [inboundStep] at stepped
  split at stepped
  · rename_i can
    rw [Incoming.canFinish, Bool.and_eq_true] at can
    obtain ⟨whole, _⟩ := can
    simp only [processReadEvent_finished] at stepped
    cases stepped
    generalize is : (driver.incoming fun incoming => { incoming.settle with told := true }) = middle
    have goes : driver.conn.Goes middle.conn := by
      subst is
      exact (Incoming.settle_took driver.conn).goes.with true driver.conn.armed driver.conn.amounts driver.conn.silent
    have isOver : middle.conn.exhausted = true := by
      rw [← is]
      exact Bool.or_eq_true_iff.mpr (.inr (Bool.and_eq_true_iff.mp whole).1)
    have armed : middle.conn.armed = driver.conn.armed := by rw [← is]; rfl
    have streams : middle.streamMap = driver.streamMap := by rw [← is]; rfl
    have inbound : middle.inbound = driver.inbound := by rw [← is]; rfl
    have waiting : middle.waitingStreams = driver.waitingStreams := by rw [← is]; rfl
    have delivers : Http3Driver.Delivers middle.conn (middle.inbound link) := by
      rw [inbound]
      exact relays.delivers.goes goes rfl
    by_cases ended : ∀ ctx, middle.streamMap streamId = some ctx → ctx.finRecv = true
    · rw [processH3Fin_finished ended]
      refine ⟨delivers, fun ctx present => ?_, fun absent => ?_, waiting ▸ relays.futures⟩
      · rw [inbound, waiting]
        exact (relays.follows ctx (streams ▸ present)).goes goes (fun _ => isOver) armed
          (fun _ => ended ctx present) rfl rfl id
      · rw [inbound]
        exact (relays.gone (streams ▸ absent)).imp_right (Or.imp_left goes.reset)
    · obtain ⟨ctx, rest⟩ := not_forall.mp ended
      obtain ⟨present, unended⟩ := Classical.not_imp.mp rest
      have before : ctx.finRecv = false := Bool.eq_false_iff.mpr unended
      have follows := relays.follows ctx (streams ▸ present)
      refine processH3Fin_relays present before delivers ?_ ?_ ?_ fun _ => ⟨goes.whole whole, isOver⟩
      · rw [inbound]
        exact follows.sending
      · rw [inbound]
        exact fun ended => unended (follows.unended ended).1
      · rw [waiting]
        exact follows.placed
  · cases stepped
    exact relays

theorem gone_relays
    (gone : (driver.inbound link).closed = true ∨ driver.conn.reset = true ∨ (driver.inbound link).ended) :
    (driver.finishStream incomingHttp3 streamId none none).Relays streamId link := by
  cases present : driver.streamMap streamId with
  | none =>
    rw [finishStream_none present]
    exact relays
  | some ctx => exact finishStream_relays present relays.delivers relays.futures gone

theorem reset_relays (reset : driver.conn.reset = true) :
    (driver.processReadEvent incomingHttp3 streamId (.reset 0)).1.Relays streamId link := by
  rw [processReadEvent, forwardSettings_ok]
  dsimp only
  obtain ⟨sent, notified⟩ := foldl_notify [.resetStream streamId] driver
  rw [List.foldl_cons, List.foldl_nil] at notified
  have relaying : (driver.notify (.resetStream streamId)).Relays streamId link := notified ▸ relays
  have finished := gone_relays relaying (.inr (.inl (notified ▸ reset)))
  rw [sendEvent]
  generalize driver.notify _ = middle at relaying finished ⊢
  cases driver.controllerListens with
  | false => exact relaying
  | true => exact finished

end

theorem resume_relays {waiting : List WaitForStream}
    (present : driver.streamMap streamId = some { ctx with send := some link })
    (nowhere : upstreams driver.waitingStreams = []) (delivers : Http3Driver.Delivers driver.conn (driver.inbound link))
    (follows : Follows streamId link driver.conn (driver.inbound link) waiting ctx) (waits : ctx.send = none)
    (reports : driver.conn.reset = true → driver.conn.silent = false) (room : (driver.inbound link).closed = false →
      (driver.inbound link).capacity - (driver.inbound link).queue.length ≠ 0) :
    (driver.processH3Data incomingHttp3 streamId).1.Relays streamId link := by
  have fresh : ¬(driver.inbound link).ended := fun ended => by
    have send := (follows.unended ended).2
    rw [waits] at send
    cases send
  cases finRecv : ctx.finRecv with
  | true =>
    refine processH3DataThen_ended _ present finRecv delivers follows.sending fresh (.inl ⟨rfl, nowhere⟩) fun opens => ?_
    obtain ⟨whole, isOver, _⟩ := follows.ended opens finRecv
    exact ⟨whole, isOver⟩
  | false =>
    cases closed : (driver.inbound link).closed with
    | true =>
      refine processH3Data_closed present closed (closed_relays present closed delivers follows.sending ?_
        (.inl ⟨rfl, nowhere⟩) follows.told)
      exact fun ended => absurd ended fresh
    | false =>
      have untold : driver.conn.told = false :=
        Bool.eq_false_iff.mpr fun told => Bool.eq_false_iff.mp finRecv (follows.told told)
      exact processH3Data_relays present finRecv rfl nowhere closed delivers follows.sending fresh untold
        (follows.waits closed finRecv waits) reports fun full => absurd full (room closed)

theorem ready_relays (relays : driver.Relays streamId link) (index : Nat) (amounts : List Nat) {silent : Bool}
    (reports : driver.conn.reset = true → silent = false)
    (stepped : inboundStep streamId link driver (.ready index amounts silent) = some next) :
    next.Relays streamId link := by
  have answering : (driver.answering amounts silent).Relays streamId link := by
    have goes := (Incoming.took_nothing driver.conn).goes.with driver.conn.told driver.conn.armed amounts silent
    exact relays.incoming goes id rfl rfl
  rw [inboundStep] at stepped
  split at stepped
  · rename_i id chan found
    generalize is : driver.answering amounts silent = middle at answering stepped
    have indexed : middle.waitingStreams[index]? = some (.upstream id chan) := by
      rw [← is]
      exact found
    rw [upstreamReady, indexed] at stepped
    dsimp only at stepped
    split at stepped
    · rename_i ready
      cases stepped
      have here : WaitForStream.upstream id chan ∈ upstreams middle.waitingStreams :=
        List.mem_filter.mpr ⟨List.mem_of_getElem? indexed, rfl⟩
      cases answering.futures _ here
      rw [upstreamWriteReady]
      cases present : middle.streamMap streamId with
      | none =>
        have closes := closes_inbound { middle with waitingStreams := middle.waitingStreams.eraseIdx index } link
        obtain ⟨queue, received, closed⟩ := closes.inbound link
        have sent := congrArg₂ (· ++ ·) received queue
        refine ⟨?_, ?_, fun _ => ?_, fun pending is => ?_⟩
        · exact answering.delivers.goes (Incoming.took_nothing _).goes sent
        · rw [closes.streams]
          dsimp only
          rw [present]
          nofun
        · refine (answering.gone present).imp closed.trans (Or.imp_right fun ended => ?_)
          rw [Channel.ended, Channel.sent, queue, received]
          exact ended
        · obtain ⟨stays, kind⟩ := List.mem_filter.mp is
          exact answering.futures pending (List.mem_filter.mpr ⟨List.mem_of_mem_eraseIdx stays, kind⟩)
      | some ctx =>
        have follows := answering.follows ctx present
        have waits : ctx.send = none ∧ upstreams middle.waitingStreams = [.upstream streamId link] := by
          refine follows.placed.resolve_left fun placed => ?_
          rw [placed.2] at here
          cases here
        have nowhere := (upstreams_eraseIdx indexed waits.2).2
        refine resume_relays (Function.update_self ..) nowhere answering.delivers follows waits.1 ?_ fun opens => ?_
        · rw [setStream, ← is]
          exact reports
        · have known : (decide ((middle.inbound link).queue.length < (middle.inbound link).capacity) ||
              !(middle.inbound link).sending || (middle.inbound link).closed) = true := ready
          have still : (middle.inbound link).closed = false := opens
          rw [follows.sending, still, Bool.not_true, Bool.or_false, Bool.or_false, decide_eq_true_eq] at known
          exact Nat.sub_ne_zero_of_lt known
    · cases stepped
      exact answering
  · cases stepped
    exact relays

theorem inboundStep_relays (relays : driver.Relays streamId link) {op : InboundOp}
    (regular : Regular streamId link driver op)
    (stepped : inboundStep streamId link driver op = some next) : next.Relays streamId link := by
  cases op with
  | arrive bytes extra =>
    cases stepped
    refine relays.incoming (driver.conn.arrive_goes bytes extra) ?_ ?_ ?_
    all_goals
      rw [Incoming.arrive]
      split
      · first | exact id | rfl
      · split
        · first | exact id | rfl
        · first | exact id | rfl
  | fin =>
    cases stepped
    exact relays.incoming driver.conn.fin_goes id rfl rfl
  | reset =>
    cases stepped
    refine relays.incoming driver.conn.resetStream_goes ?_ ?_ ?_
    all_goals
      rw [Incoming.resetStream]
      split
      · first | exact id | rfl
      · first | exact id | rfl
  | data amounts silent => exact data_relays relays amounts regular stepped
  | finished => exact finished_relays relays stepped
  | resetEvent =>
    rw [inboundStep] at stepped
    split at stepped
    · rename_i reset
      cases stepped
      exact reset_relays relays reset
    · cases stepped
      exact relays
  | ready index amounts silent => exact ready_relays relays index amounts regular stepped
  | recv =>
    cases stepped
    have sent : (driver.inbound link).recv.sent = (driver.inbound link).sent := by
      rw [Channel.sent, Channel.recv, Channel.sent, List.append_assoc]
      cases (driver.inbound link).queue with
      | nil => rfl
      | cons frame rest => rfl
    rw [Relays, updateInbound]
    simp only [Function.update_self]
    exact Delivering.goes relays (Incoming.took_nothing _).goes id rfl rfl sent rfl id
  | hangUp =>
    cases stepped
    rw [Relays, updateInbound]
    simp only [Function.update_self]
    exact Delivering.goes relays (Incoming.took_nothing _).goes id rfl rfl rfl rfl fun _ => rfl
  | sentFin =>
    rw [inboundStep] at stepped
    split at stepped
    · cases stepped
      exact relays
    · rename_i ctx present
      have follows := relays.follows ctx present
      split at stepped
      · cases stepped
        exact relays
      · split at stepped
        · rename_i finRecv
          cases stepped
          refine gone_relays relays ?_
          cases closed : (driver.inbound link).closed with
          | true => exact .inl rfl
          | false =>
            have here := regular
            rw [Regular, endWaits, present, Option.any_some, finRecv, closed] at here
            rcases follows.placed with ⟨send, _⟩ | ⟨send, _⟩
            · exact .inr (.inr ((follows.ended closed finRecv).2.2 send))
            · rw [send] at here
              cases here
        · cases stepped
          have stored : (driver.setStream streamId (some { ctx with finSent := true })).streamMap streamId =
              some { ctx with finSent := true } := Function.update_self ..
          refine relays_of_some stored relays.delivers ?_
          exact ⟨follows.sending, follows.placed, follows.ended, follows.unended, follows.armed, follows.waits,
            follows.told⟩

theorem inboundStep_total (streamId link : Nat) (driver : Reader) (op : InboundOp) :
    ∃ next, inboundStep streamId link driver op = some next := by
  cases op with
  | ready index amounts silent =>
    rw [inboundStep]
    split
    · rename_i id chan found
      have indexed : (driver.answering amounts silent).waitingStreams[index]? = some (.upstream id chan) := found
      rw [upstreamReady, indexed]
      dsimp only
      split
      · exact ⟨_, rfl⟩
      · exact ⟨_, rfl⟩
    · exact ⟨_, rfl⟩
  | data amounts silent =>
    rw [inboundStep]
    split
    · exact ⟨_, rfl⟩
    · exact ⟨_, rfl⟩
  | finished =>
    rw [inboundStep]
    split
    · exact ⟨_, rfl⟩
    · exact ⟨_, rfl⟩
  | resetEvent =>
    rw [inboundStep]
    split
    · exact ⟨_, rfl⟩
    · exact ⟨_, rfl⟩
  | sentFin =>
    rw [inboundStep]
    split
    · exact ⟨_, rfl⟩
    · split
      · exact ⟨_, rfl⟩
      · split
        · exact ⟨_, rfl⟩
        · exact ⟨_, rfl⟩
  | _ => exact ⟨_, rfl⟩

/-- The stream is open on a new channel, and nothing has arrived. -/
structure Fresh (streamId link : Nat) (driver : Reader) : Prop where
  conn : driver.conn = .new
  channel : ∃ capacity, driver.inbound link = .new capacity
  stream : ∃ ctx, driver.streamMap streamId = some ctx ∧ ctx.send = some link ∧ ctx.finRecv = false
  nowhere : upstreams driver.waitingStreams = []

theorem Fresh.relays (fresh : Fresh streamId link driver) : driver.Relays streamId link := by
  obtain ⟨capacity, channel⟩ := fresh.channel
  obtain ⟨ctx, present, send, before⟩ := fresh.stream
  refine relays_of_some present ?_ ?_
  · rw [fresh.conn, channel]
    exact ⟨fun _ => rfl, List.prefix_refl _, fun _ => rfl, nofun, [], rfl, .inl rfl⟩
  · rw [fresh.conn, channel]
    have unended : ¬ctx.finRecv = true := Bool.eq_false_iff.mp before
    refine ⟨rfl, .inl ⟨send, fresh.nowhere⟩, fun _ is => absurd is unended, nofun, fun _ _ _ _ => .inl rfl,
      fun _ _ waits => ?_, nofun⟩
    rw [send] at waits
    cases waits

/-- Nothing is left to do for the stream: no event of the transport, no future that is ready, and the channel has
room. -/
structure Quiet (link : Nat) (driver : Reader) : Prop where
  data : driver.conn.canData = false
  finished : driver.conn.canFinish = false
  futures : ∀ pending ∈ upstreams driver.waitingStreams, driver.isReady pending = false
  room : (driver.inbound link).queue.length < (driver.inbound link).capacity
  receives : (driver.inbound link).closed = false

theorem ended_whole {incoming : Incoming} {channel : Channel InboundFrame}
    (delivers : Http3Driver.Delivers incoming channel) (ended : channel.ended) : incoming.whole = true := by
  obtain ⟨datas, _, order⟩ := delivers.carried
  rcases order with all | ⟨_, whole⟩
  · rw [Channel.ended, all] at ended
    obtain ⟨data, _, is⟩ := List.mem_map.mp ended
    cases is
  · exact whole

theorem Relays.quiet (relays : driver.Relays streamId link) (quiet : driver.Quiet link) :
    driver.conn.unread = [] ∧ (driver.conn.whole = true → (driver.inbound link).ended) := by
  have known : (driver.inbound link).ended → driver.conn.unread = [] ∧
    (driver.conn.whole = true → (driver.inbound link).ended) :=
    fun ended => ⟨((driver.conn.whole_iff.mp (ended_whole relays.delivers ended)).2.2).1, fun _ => ended⟩
  have lost : driver.conn.reset = true → driver.conn.unread = [] ∧
    (driver.conn.whole = true → (driver.inbound link).ended) := by
    intro reset
    refine ⟨relays.delivers.discarded reset, fun whole => ?_⟩
    rw [(driver.conn.whole_iff.mp whole).1] at reset
    cases reset
  cases present : driver.streamMap streamId with
  | none =>
    rcases relays.gone present with closed | reset | ended
    · rw [quiet.receives] at closed
      cases closed
    · exact lost reset
    · exact known ended
  | some ctx =>
    have follows := relays.follows ctx present
    rcases follows.placed with ⟨send, _⟩ | ⟨_, waits⟩
    · cases finRecv : ctx.finRecv with
      | true => exact known ((follows.ended quiet.receives finRecv).2.2 send)
      | false =>
        cases reset : driver.conn.reset with
        | true => exact lost reset
        | false =>
          have unfinished : driver.conn.whole = true → False := fun whole => by
            have pending := quiet.finished
            rw [Incoming.canFinish, whole, Bool.true_and, Bool.not_eq_false'] at pending
            exact Bool.eq_false_iff.mp finRecv (follows.told pending)
          refine ⟨Classical.not_not.mp fun someUnread => ?_, fun whole => absurd whole unfinished⟩
          have readable := driver.conn.streamReadable_iff.mpr (.inl someUnread)
          rcases follows.armed quiet.receives finRecv reset send with armed | finished
          · have pending := quiet.data
            rw [Incoming.canData, armed, readable, Bool.and_self, Bool.true_and, Bool.not_eq_false'] at pending
            exact unfinished (Incoming.whole_of_finished (relays.delivers.settled pending) reset)
          · exact unfinished (Incoming.whole_of_finished finished reset)
    · have pending := quiet.futures (.upstream streamId link) (waits ▸ List.mem_singleton.mpr rfl)
      have room : (decide ((driver.inbound link).queue.length < (driver.inbound link).capacity) ||
          !(driver.inbound link).sending || (driver.inbound link).closed) = true := by
        rw [decide_eq_true quiet.room]
        rfl
      rw [show driver.isReady (.upstream streamId link) = true from room] at pending
      cases pending

/-- Whatever the order of events, the frames sent to the application carry the bytes that were read in order; the
last one follows the whole body; and nothing is forgotten. -/
theorem inbound_delivered (fresh : Fresh streamId link driver) {ops : List InboundOp}
    (regular : (inboundMachine streamId link).Guarded (Regular streamId link) driver ops) :
    ∃ final, (inboundMachine streamId link).run driver ops = some final ∧
      ∃ datas : List (List UInt8), List.IsPrefix datas.flatten final.conn.body ∧
        ((final.inbound link).sent = datas.map (⟨·, false⟩) ∨
          (final.inbound link).sent = datas.map (⟨·, false⟩) ++ [⟨[], true⟩] ∧
            final.conn.fin = true ∧ final.conn.reset = false ∧ datas.flatten = final.conn.body) ∧
        (final.Quiet link → final.conn.unread = [] ∧ (final.conn.reset = false → datas.flatten = final.conn.body) ∧
          (final.conn.whole = true → (final.inbound link).sent = datas.map (⟨·, false⟩) ++ [⟨[], true⟩])) := by
  have preserved : ∀ state op, Relays streamId link state → Regular streamId link state op →
      ∃ next, (inboundMachine streamId link).step state op = some next ∧ Relays streamId link next := by
    intro state op relays admitted
    obtain ⟨next, stepped⟩ := inboundStep_total streamId link state op
    exact ⟨next, stepped, inboundStep_relays relays admitted stepped⟩
  obtain ⟨final, returned, relays⟩ := (inboundMachine streamId link).run_total_of_guarded preserved fresh.relays regular
  obtain ⟨datas, flat, order⟩ := relays.delivers.carried
  refine ⟨final, returned, datas, flat ▸ relays.delivers.read, order.imp_right fun last => ?_, fun quiet => ?_⟩
  · obtain ⟨sent, whole⟩ := last
    obtain ⟨alive, fin, empty, _⟩ := final.conn.whole_iff.mp whole
    refine ⟨sent, fin, alive, ?_⟩
    rw [relays.delivers.arrived alive, empty, flat, List.append_nil]
  · obtain ⟨empty, complete⟩ := relays.quiet quiet
    refine ⟨empty, fun alive => ?_, fun whole => ?_⟩
    · rw [relays.delivers.arrived alive, empty, flat, List.append_nil]
    · rcases order with all | last
      · have ended := complete whole
        rw [Channel.ended, all] at ended
        obtain ⟨data, _, is⟩ := List.mem_map.mp ended
        cases is
      · exact last.1

def reader : Reader := ((new .new (.server 0 none) 1).handleRequest incomingHttp3 0 [] true).1

theorem reader_fresh : Fresh 0 0 reader := ⟨rfl, ⟨1, rfl⟩, ⟨_, rfl, rfl, rfl⟩, rfl⟩

/-- Two bytes that are read one by one, and the end of the stream while the second one waits for capacity. -/
def blockedBody : List InboundOp :=
  [.arrive [1, 2] false, .data [1] false, .fin, .recv, .ready 1 [1] false, .recv, .ready 1 [] false, .recv]

theorem inbound_delivered_blocked : ∃ final, (inboundMachine 0 0).run reader blockedBody = some final ∧
    (final.inbound 0).received = [⟨[1], false⟩, ⟨[2], false⟩, ⟨[], true⟩] ∧
      ∃ datas : List (List UInt8), List.IsPrefix datas.flatten final.conn.body :=
  exists_reached_and (fun final => (final.inbound 0).received = [⟨[1], false⟩, ⟨[2], false⟩, ⟨[], true⟩])
    (inbound_delivered reader_fresh (show (inboundMachine 0 0).Guarded (Regular 0 0) reader _ by decide +kernel))
    (by decide +kernel) fun _ ⟨datas, order, _⟩ received => ⟨received, datas, order⟩

/-- The peer resets the stream while its second byte waits for capacity, and `recv_body` reports nothing. -/
def truncated : List InboundOp := [.arrive [1, 2] false, .data [1] false, .reset, .recv, .ready 1 [] true, .recv]

def unfinished : List InboundOp :=
  [.arrive [1] false, .data [1] false, .fin, .finished, .sentFin, .recv, .ready 1 [] false]

theorem reset_ends_body : (((inboundMachine 0 0).run reader truncated).map fun final =>
      ((final.inbound 0).received, final.conn.body, final.conn.fin, final.conn.reset)) =
        some ([⟨[1], false⟩, ⟨[], true⟩], [1, 2], false, true) ∧
    (((inboundMachine 0 0).run reader unfinished).map fun final =>
      ((final.inbound 0).sent, final.conn.body, final.conn.whole)) = some ([⟨[1], false⟩], [1], true) ∧
    ∀ final, (inboundMachine 0 0).run reader unfinished = some final → final.Quiet 0 := by
  refine ⟨by decide +kernel, by decide +kernel, fun final returned => ?_⟩
  have quiet : ((inboundMachine 0 0).run reader unfinished).all (fun final =>
      !final.conn.canData && !final.conn.canFinish && (upstreams final.waitingStreams).isEmpty &&
        decide ((final.inbound 0).queue.length < (final.inbound 0).capacity) && !(final.inbound 0).closed) = true := by
    decide +kernel
  rw [returned, Option.all_some] at quiet
  simp only [Bool.and_eq_true, Bool.not_eq_true', List.isEmpty_iff, decide_eq_true_eq] at quiet
  obtain ⟨⟨⟨⟨data, finished⟩, nowhere⟩, room⟩, receives⟩ := quiet
  exact ⟨data, finished, nowhere ▸ nofun, room, receives⟩

end H3Driver

end Quiche.Http3Driver
