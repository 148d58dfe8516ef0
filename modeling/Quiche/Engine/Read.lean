import Quiche.Engine.Write

namespace Quiche

open Data

namespace RecvBuf

variable {recv next : RecvBuf}

theorem writeLoop_error {fuel : Nat} {bufs : List RangeBuf} (looped : writeLoop fuel recv bufs = some next) :
    next.error = recv.error := by
  induction fuel generalizing recv bufs with
  | zero =>
    cases bufs with
    | nil =>
      cases looped
      rfl
    | cons buf bufs => cases looped
  | succ fuel ih =>
    cases bufs with
    | nil =>
      cases looped
      rfl
    | cons buf bufs =>
      rw [writeLoop] at looped
      obtain ⟨front, _, looped⟩ := Option.bind_eq_some_iff.mp looped
      obtain ⟨⟨kept, tmpBufs⟩, _, looped⟩ := Option.bind_eq_some_iff.mp looped
      cases kept with
      | none => exact ih looped
      | some kept =>
        rw [ih looped]
        split <;> rfl

theorem write_error {buf : RangeBuf} {result : Except Error Unit} (written : recv.write buf = some (next, result)) :
    next.error = recv.error := by
  by_cases bound : buf.maxOff < 2 ^ 64
  · rcases write_admission recv buf bound with ⟨error, refused⟩ | ⟨_, unfolded⟩
    · cases refused.symm.trans written
      rfl
    · have marked : (recv.mark buf).error = recv.error := by
        rw [mark]
        split <;> rfl
      rw [unfolded] at written
      split at written
      · cases written
        rfl
      split at written
      · cases written
        exact marked
      split at written
      · cases written
        exact marked
      · obtain ⟨last, looped, same⟩ := Option.map_eq_some_iff.mp written
        cases same
        rw [writeLoop_error looped, marked]
  · rw [write, if_pos (Nat.not_lt.mp bound)] at written
    cases written

def gapWithin (recv : RecvBuf) (count : Nat) : Bool := (recv.off :: recv.data.entries.map (·.2.maxOff)).any fun gap =>
    decide (gap ≤ recv.off + count) && recv.data.entries.all fun entry => !decide (entry.2.Covers gap)

theorem Valid.gap_exists {count : Nat} (valid : recv.Valid) (within : recv.gapWithin count = true) :
    ∃ gap, recv.off ≤ gap ∧ gap ≤ recv.off + count ∧ ∀ byte, ¬ recv.Stored gap byte := by
  obtain ⟨gap, member, found⟩ := List.any_eq_true.mp within
  rw [Bool.and_eq_true, decide_eq_true_eq, List.all_eq_true] at found
  refine ⟨gap, ?_, found.1, ?_⟩
  · rcases List.mem_cons.mp member with same | ends
    · exact Nat.le_of_eq same.symm
    · obtain ⟨entry, stored, same⟩ := List.mem_map.mp ends
      have unread := valid.unread entry stored
      have order := entry.2.off_le_maxOff
      omega
  · rintro byte ⟨entry, stored, present⟩
    have free := found.2 entry stored
    simp [RangeBuf.covers_of_byteAt present] at free

theorem Emitted.dry {cap : Nat} {out : List UInt8} (emitted : Emitted recv cap out next) (valid : recv.Valid)
    (within : recv.gapWithin cap = true) (byte : UInt8) : ¬ next.Stored next.off byte := by
  rcases emitted.exhausted with full | idle
  · obtain ⟨gap, lower, upper, missing⟩ := valid.gap_exists within
    have offset := emitted.off
    by_cases before : gap < next.off
    · have inside : gap - recv.off < out.length := by omega
      have stored := emitted.bytes (gap - recv.off) _ (List.getElem?_eq_getElem inside)
      rw [Nat.add_sub_cancel' lower] at stored
      exact (missing _ stored).elim
    · have same : gap = next.off := by omega
      rw [emitted.stored next.off (Nat.le_refl _), ← same]
      exact missing byte
  · exact emitted.valid.missing_of_not_ready idle byte

theorem reset_error {errorCode finalSize : Nat} {result : Except Error Nat}
    (reset : recv.reset errorCode finalSize = some (next, result)) : next = recv ∨ next.error ≠ none := by
  rw [RecvBuf.reset] at reset
  split at reset
  · cases reset
    exact .inl rfl
  split at reset
  · cases reset
    exact .inl rfl
  dsimp only at reset
  split at reset
  · cases reset
    exact .inl rfl
  · obtain ⟨⟨written, outcome⟩, wrote, reset⟩ := Option.bind_eq_some_iff.mp reset
    have kept := write_error wrote
    have marked : written.error ≠ none := by
      rw [kept]
      exact Option.some_ne_none errorCode
    cases outcome with
    | error error =>
      cases reset
      exact .inr marked
    | ok _ =>
      cases reset
      exact .inr marked

namespace Session

variable {session next : Session}

/-- What was delivered is what was written to the buffer, byte by byte, and FIN is only seen at its end. -/
structure Heard (session : Session) : Prop where
  first : ∀ index, index < session.delivered.length → session.delivered[index]? = firstByte session.accepted index
  seen : session.finSeen = true → ∃ chunk ∈ session.accepted, chunk.fin = true ∧ chunk.maxOff = session.delivered.length
  alive : session.recv.error = none → session.Faithful
  ended : session.recv.error = none → ∀ final, session.recv.finOff = some final →
    ∃ chunk ∈ session.accepted, chunk.fin = true ∧ chunk.maxOff = final

theorem start_heard (maxData maxWindow : UInt64) : (start maxData.toNat maxWindow.toNat).Heard where
  first := by simp [start]
  seen seen := by cases seen
  alive _ := start_faithful maxData maxWindow
  ended _ := by simp [start, RecvBuf.new]

theorem Heard.first_append (heard : session.Heard) (more : List Chunk) {index : Nat}
    (below : index < session.delivered.length) :
    session.delivered[index]? = firstByte (session.accepted ++ more) index := by
  have first := heard.first index below
  rw [List.getElem?_eq_getElem below] at first ⊢
  rw [firstByte, List.findSome?_append, ← firstByte, ← first]
  rfl

theorem step_write_cases {chunk : Chunk} (stepped : session.step (.write chunk) = some next) :
    next.delivered = session.delivered ∧ next.finSeen = session.finSeen ∧
      (next.accepted = session.accepted ∨ next.accepted = session.accepted ++ [chunk]) ∧
      next.recv.error = session.recv.error := by
  obtain ⟨⟨recv, result⟩, written, same⟩ := Option.map_eq_some_iff.mp stepped
  have kept := write_error written
  subst same
  cases result with
  | error error => exact ⟨rfl, rfl, .inl rfl, kept⟩
  | ok _ => exact ⟨rfl, rfl, .inr rfl, kept⟩

theorem Heard.write {chunk : Chunk} (heard : session.Heard) (stepped : session.step (.write chunk) = some next) :
    next.Heard := by
  obtain ⟨delivered, seen, accepted, error⟩ := step_write_cases stepped
  obtain ⟨more, accepted⟩ : ∃ more, next.accepted = session.accepted ++ more := by
    rcases accepted with accepted | accepted
    · exact ⟨[], by rw [accepted, List.append_nil]⟩
    · exact ⟨[chunk], accepted⟩
  refine ⟨?_, ?_, ?_, ?_⟩
  · rw [delivered, accepted]
    exact fun index below => heard.first_append more below
  · rw [seen, delivered, accepted]
    intro seen
    obtain ⟨last, member, ends⟩ := heard.seen seen
    exact ⟨last, List.mem_append_left _ member, ends⟩
  · rw [error]
    intro alive
    obtain ⟨other, otherStepped, faithful⟩ := (heard.alive alive).step (.write chunk)
    cases stepped.symm.trans otherStepped
    exact faithful
  · rw [error]
    intro alive final known
    obtain ⟨other, otherStepped, outcome⟩ := (heard.alive alive).step_write chunk
    cases stepped.symm.trans otherStepped
    rcases outcome with same | ⟨history, _, _, added⟩
    · subst same
      exact heard.ended alive final known
    · rw [added.finOff] at known
      rw [history]
      split at known
      · rename_i isFin
        exact ⟨chunk, List.mem_append_right _ (List.mem_singleton_self chunk), isFin, Option.some.inj known⟩
      · obtain ⟨last, member, ends⟩ := heard.ended alive final known
        exact ⟨last, List.mem_append_left _ member, ends⟩

theorem Heard.reset {errorCode finalSize : Nat} {result : Except Error Nat} (heard : session.Heard)
    (reset : session.recv.reset errorCode finalSize = some (recv, result)) : { session with recv : Session }.Heard := by
  rcases reset_error reset with same | dead
  · subst same
    exact heard
  · exact ⟨heard.first, heard.seen, fun alive => (dead alive).elim, fun alive => (dead alive).elim⟩

theorem Heard.raise (heard : session.Heard) (maxData : UInt64) :
    { session with recv := { session.recv with flowControl := { session.recv.flowControl with
      maxData := max session.recv.flowControl.maxData maxData.toNat } } : Session }.Heard where
  first := heard.first
  seen := heard.seen
  ended := heard.ended
  alive alive := by
    have faithful := heard.alive alive
    have valid := faithful.valid
    exact {
      valid := {
        keyed := valid.keyed
        apart := valid.apart
        unread := valid.unread
        received := valid.received
        empty_fin := valid.empty_fin
        off_le_len := valid.off_le_len
        len_le_fin := valid.len_le_fin
        len_le_maxData := Nat.le_trans valid.len_le_maxData (Nat.le_max_left ..)
        maxData_lt := Nat.max_lt.mpr ⟨valid.maxData_lt, maxData.toNat_lt⟩ }
      open_ := faithful.open_
      alive := faithful.alive
      counted := faithful.counted
      delivered_length := faithful.delivered_length
      delivered_first := faithful.delivered_first
      stored_first := faithful.stored_first
      fin_recorded := faithful.fin_recorded }

/-- What a read of the transport's stream does. -/
inductive Reading (session : Session) (cap : Nat) (next : Session) : Except Error (List UInt8 × Bool) → Prop
  | nothing (error : Error) (delivered : next.delivered = session.delivered) (seen : next.finSeen = session.finSeen)
      (idle : next.recv.error = none → next.recv.ready = false) : Reading session cap next (.error error)
  | taken (out : List UInt8) (delivered : next.delivered = session.delivered ++ out)
      (seen : next.finSeen = (session.finSeen || next.recv.isFin)) (emitted : Emitted session.recv cap out next.recv)
      (exhausted : session.finSeen = true → out = []) : Reading session cap next (.ok (out, next.recv.isFin))

theorem Heard.streamRecv {cap : Nat} {result : Except Error (List UInt8 × Bool)} (heard : session.Heard)
    (received : session.streamRecv cap = some (next, result)) :
    next.accepted = session.accepted ∧ next.Heard ∧ Reading session cap next result := by
  rw [Session.streamRecv] at received
  cases readyNow : session.recv.ready with
  | false =>
    rw [emit_idle readyNow] at received
    cases received
    exact ⟨rfl, heard, .nothing _ rfl rfl fun _ => readyNow⟩
  | true =>
    cases error : session.recv.error with
    | some code =>
      rw [emit, if_neg (by simp [readyNow]), error] at received
      cases received
      have dead : some code ≠ none := Option.some_ne_none code
      exact ⟨rfl, ⟨heard.first, heard.seen, fun alive => (dead alive).elim, fun alive => (dead alive).elim⟩,
        .nothing _ rfl rfl fun alive => (dead alive).elim⟩
    | none =>
      have faithful := heard.alive error
      obtain ⟨recv, out, called, emitted⟩ := emit_spec faithful.valid error faithful.counted readyNow cap
      rw [called] at received
      cases received
      have later : Faithful ⟨recv, session.accepted, session.delivered ++ out, session.finSeen || recv.isFin⟩ :=
        faithful.deliver rfl rfl emitted
      have exhausted : session.finSeen = true → out = [] := by
        intro seen
        obtain ⟨last, member, isFin, ends⟩ := heard.seen seen
        have final := faithful.fin_recorded last member isFin
        rw [ends, faithful.delivered_length, ← emitted.finOff] at final
        have within := Nat.le_trans emitted.valid.off_le_len (emitted.valid.len_le_fin _ final)
        rw [emitted.off] at within
        exact List.eq_nil_of_length_eq_zero (by omega)
      refine ⟨rfl, ⟨?_, ?_, fun _ => later, ?_⟩, .taken out rfl rfl emitted exhausted⟩
      · intro index below
        exact later.delivered_first index (later.delivered_length ▸ below)
      · intro seen
        rcases Bool.or_eq_true_iff.mp seen with before | now
        · obtain ⟨last, member, ends⟩ := heard.seen before
          refine ⟨last, member, ?_⟩
          rw [exhausted before, List.append_nil]
          exact ends
        · rw [isFin, beq_iff_eq, emitted.finOff] at now
          obtain ⟨last, member, isFin, ends⟩ := heard.ended error _ now
          refine ⟨last, member, isFin, ?_⟩
          rw [ends]
          exact later.delivered_length.symm
      · intro _ final known
        exact heard.ended error final (emitted.finOff ▸ known)

end Session

end RecvBuf

namespace Engine

variable {engine next : Engine}

def streamByte (engine : Engine) (id index : Nat) : Option UInt8 :=
  (engine.incoming.lookup id).bind fun session => RecvBuf.firstByte session.accepted index

/-- What `read` returned are the bytes of the stream in order, and FIN is reported only at its end. -/
structure ReadsInOrder (engine : Engine) : Prop where
  bytes : ∀ index, index < engine.returned.length → engine.returned[index]? = engine.streamByte engine.streamId index
  fin : engine.finReported = true → ∃ session, engine.incoming.lookup engine.streamId = some session ∧
    ∃ chunk ∈ session.accepted, chunk.fin = true ∧ chunk.maxOff = engine.returned.length

/-- The session holds nothing that can be read and is not in the buffer. -/
def Moved (session : RecvBuf.Session) (buffer : StreamReadBuffer) : Prop :=
  session.recv.error = none → (∀ byte, ¬ session.recv.Stored session.recv.off byte) ∧
      (session.recv.ready = true → session.recv.isFin = true → buffer.finReceived = true)

/-- After a `flushEgress` nothing is left behind in the transport. -/
def LeavesNothing (engine : Engine) : Prop :=
  engine.flushed = true → engine.readable = [] → ∀ id session, engine.incoming.lookup id = some session →
    Moved session (engine.streamBuffers id)

/-- `quiche_conn_send` makes all its packets without an error. -/
def makesAll : List SendResult → Bool
  | [] | .done :: _ => true
  | .failed :: _ => false
  | .packet _ :: calls => makesAll calls

/-- No readable stream holds more than `temp_buf` does. -/
def keepsUp (engine : Engine) (calls : List SendResult) (order : List Nat) : Bool :=
  makesAll calls && order.all fun id =>
    (engine.incoming.lookup id).all fun session => session.recv.gapWithin tempBufSize

/-- Each `flushEgress` comes to its reads, and keeps up. -/
def readsAll (engine : Engine) : Op → Bool
  | .flushEgress _ calls order => engine.keepsUp calls order
  | .processCommand _ _ calls order => engine.keepsUp calls order
  | _ => true

theorem completed_eq (batch : List Packet) (socket : List Nat) (calls : List SendResult) :
    (sendBatches batch socket calls).completed = makesAll calls := by
  induction calls generalizing batch socket with
  | nil => rfl
  | cons call calls ih =>
    cases call with
    | done => rfl
    | failed => rfl
    | packet bytes =>
      rw [sendBatches, makesAll]
      dsimp only
      split
      · exact ih ..
      · exact ih ..

/-- The buffer holds what the session delivered. -/
def Mirrors (buffer : StreamReadBuffer) : Option RecvBuf.Session → Prop
  | some session => buffer.data = session.delivered ∧ buffer.finReceived = session.finSeen
  | none => buffer.data = [] ∧ buffer.finReceived = false

/-- What a step does to the receiving side of the streams. -/
inductive Streams (engine : Engine) (op : Op) (next : Engine) : Prop
  | kept (streamId : next.streamId = engine.streamId) (incoming : next.incoming = engine.incoming)
      (buffers : next.streamBuffers = engine.streamBuffers) (returned : next.returned = engine.returned)
      (finReported : next.finReported = engine.finReported) (readable : next.readable = engine.readable)
      (flushed : next.flushed = engine.flushed)
  | read (bufLen : Nat) (same : next = (engine.read bufLen).1)
  | arrived (id : Nat) (session : RecvBuf.Session) (flushed : Bool) (idle : engine.readable = [])
      (heard : (∀ old, engine.incoming.lookup id = some old → old.Heard) → session.Heard)
      (mirrors : ∀ buffer, Mirrors buffer (engine.incoming.lookup id) → Mirrors buffer (some session))
      (late : flushed = true → engine.flushed = true ∧ ∃ old, engine.incoming.lookup id = some old ∧
        ∀ buffer, Moved old buffer → Moved session buffer)
      (same : next = { engine with incoming := engine.incoming.insert id session, flushed })
  | swept (calls : List SendResult) (order : List Nat) (readable : engine.Readable order)
      (keeps : engine.readsAll op = engine.keepsUp calls order)
      (streamId : next.streamId = engine.streamId) (incoming : next.incoming = engine.incoming)
      (buffers : next.streamBuffers = engine.streamBuffers) (returned : next.returned = engine.returned)
      (finReported : next.finReported = engine.finReported)
      (listed : next.readable = if makesAll calls then order else [])
  | pulled (id : Nat) (rest : List Nat) (readable : engine.readable = id :: rest)
      (read : { engine with readable := rest }.readFromQuicheToBuffer id = some next)

theorem inCallbacks_idle (inCallbacks : engine.inCallbacks = true) : engine.readable = [] := by
  rw [Engine.inCallbacks, Bool.and_eq_true, List.isEmpty_iff] at inCallbacks
  exact inCallbacks.2

variable {op : Op} {socket order : List Nat} {calls : List SendResult}

theorem flushEgress_streams (keeps : engine.readsAll op = engine.keepsUp calls order)
    (flushed : engine.flushEgress socket calls order = some next) : Streams engine op next := by
  obtain ⟨readable, same⟩ := flushEgress_spec flushed
  subst same
  refine .swept calls order readable keeps rfl rfl rfl rfl rfl ?_
  simp only [completed_eq]

theorem processCommand_streams {room : Nat} (processed : engine.processCommand room socket calls order = some next) :
    Streams engine (.processCommand room socket calls order) next := by
  rw [processCommand] at processed
  split at processed
  · cases processed
    exact .kept rfl rfl rfl rfl rfl rfl rfl
  · rename_i cmd cmdQueue queued
    cases cmd with
    | write streamId data fin =>
      obtain ⟨readable, same⟩ := flushEgress_spec processed
      subst same
      refine .swept calls order readable rfl rfl rfl rfl rfl rfl ?_
      simp only [completed_eq]
    | close errorCode reason =>
      obtain ⟨readable, same⟩ := flushEgress_spec processed
      subst same
      refine .swept calls order readable rfl rfl rfl rfl rfl rfl ?_
      simp only [completed_eq]
    | stop =>
      cases processed
      exact .kept rfl rfl rfl rfl rfl rfl rfl

theorem recv_streams {id : Nat} {maxData maxWindow : UInt64} {chunk : RecvBuf.Chunk}
    (idle : engine.readable = []) (received : engine.recv id maxData maxWindow chunk = some next) :
    Streams engine op next := by
  obtain ⟨session, stepped, same⟩ := Option.map_eq_some_iff.mp received
  obtain ⟨delivered, seen, _, _⟩ := RecvBuf.Session.step_write_cases stepped
  refine .arrived id session false idle (fun heard => ?_) (fun buffer mirrors => ?_) (fun flushed => by cases flushed)
    same.symm
  · cases found : engine.incoming.lookup id with
    | none =>
      rw [found] at stepped
      exact (RecvBuf.Session.start_heard maxData maxWindow).write stepped
    | some old =>
      rw [found] at stepped
      exact (heard old found).write stepped
  · cases found : engine.incoming.lookup id with
    | none =>
      rw [found] at delivered seen mirrors
      exact ⟨mirrors.1.trans delivered.symm, mirrors.2.trans seen.symm⟩
    | some old =>
      rw [found] at delivered seen mirrors
      exact ⟨mirrors.1.trans delivered.symm, mirrors.2.trans seen.symm⟩

theorem reset_streams {id errorCode finalSize : Nat} (idle : engine.readable = [])
    (reset : engine.reset id errorCode finalSize = some next) : Streams engine op next := by
  obtain ⟨old, found, reset⟩ := Option.bind_eq_some_iff.mp reset
  obtain ⟨⟨recv, result⟩, called, same⟩ := Option.map_eq_some_iff.mp reset
  refine .arrived id { old with recv } false idle (fun heard => (heard old found).reset called) (fun buffer mirrors => ?_)
    (fun flushed => by cases flushed) same.symm
  rw [found] at mirrors
  exact mirrors

theorem raiseMaxData_streams {id : Nat} {maxData : UInt64} (idle : engine.readable = [])
    (raised : engine.raiseMaxData id maxData.toNat = some next) : Streams engine op next := by
  obtain ⟨old, found, same⟩ := Option.map_eq_some_iff.mp raised
  refine .arrived id _ engine.flushed idle (fun heard => (heard old found).raise maxData) (fun buffer mirrors => ?_)
    (fun flushed => ⟨flushed, old, found, fun buffer moved => moved⟩) same.symm
  rw [found] at mirrors
  exact mirrors

theorem step_streams (stepped : engine.step op = some next) : Streams engine op next := by
  cases op with
  | write data fin =>
    rw [step, Option.ite_none_right_eq_some] at stepped
    obtain ⟨_, stepped⟩ := stepped
    cases stepped
    rw [write]
    split <;> exact .kept rfl rfl rfl rfl rfl rfl rfl
  | asyncSend =>
    rw [step] at stepped
    split at stepped <;> cases stepped <;> exact .kept rfl rfl rfl rfl rfl rfl rfl
  | read bufLen => exact .read bufLen (Option.some.inj stepped).symm
  | shutdown appError reason =>
    rw [step, Option.ite_none_right_eq_some] at stepped
    obtain ⟨_, stepped⟩ := stepped
    cases stepped
    rw [shutdown]
    split <;> exact .kept rfl rfl rfl rfl rfl rfl rfl
  | recv id maxData maxWindow chunk =>
    rw [step, Option.ite_none_right_eq_some] at stepped
    exact recv_streams (inCallbacks_idle stepped.1) stepped.2
  | reset id errorCode finalSize =>
    rw [step, Option.ite_none_right_eq_some] at stepped
    exact reset_streams (inCallbacks_idle stepped.1) stepped.2
  | raiseMaxData id maxData =>
    rw [step, Option.ite_none_right_eq_some] at stepped
    exact raiseMaxData_streams (inCallbacks_idle stepped.1) stepped.2
  | flushEgress socket calls order =>
    rw [step, Option.ite_none_right_eq_some] at stepped
    exact flushEgress_streams rfl stepped.2
  | readFromQuicheToBuffer =>
    rw [step] at stepped
    split at stepped
    · cases stepped
    · rename_i id rest readable
      exact .pulled id rest readable stepped
  | processCommand room socket calls order =>
    rw [step, Option.ite_none_right_eq_some] at stepped
    exact processCommand_streams stepped.2
  | breakLoop | join | poll | asyncCallback | connectionClosed | endIteration | exit =>
    rw [step, Option.ite_none_right_eq_some] at stepped
    obtain ⟨_, stepped⟩ := stepped
    cases stepped
    exact .kept rfl rfl rfl rfl rfl rfl rfl

def filled (engine : Engine) (id : Nat) : Except Error (List UInt8 × Bool) → Nat → StreamReadBuffer
  | .error _ => engine.streamBuffers
  | .ok (bytes, localFin) =>
    Function.update engine.streamBuffers id ((engine.streamBuffers id).append bytes localFin)

theorem readFromQuicheToBuffer_cases {id : Nat} (read : engine.readFromQuicheToBuffer id = some next) :
    (engine.incoming.lookup id = none ∧ next = engine) ∨
      ∃ session later result, engine.incoming.lookup id = some session ∧
        session.streamRecv tempBufSize = some (later, result) ∧ next = { engine with
          incoming := engine.incoming.insert id later
          streamBuffers := engine.filled id result } := by
  rw [readFromQuicheToBuffer] at read
  split at read
  · rename_i missing
    exact .inl ⟨missing, (Option.some.inj read).symm⟩
  · rename_i session found
    obtain ⟨⟨later, result⟩, received, same⟩ := Option.map_eq_some_iff.mp read
    refine .inr ⟨session, later, result, found, received, ?_⟩
    rw [← same]
    cases result <;> rfl

/-- Each buffer mirrors its session, and what `read` returned is a prefix of its buffer. -/
structure Mirrored (engine : Engine) : Prop where
  heard : ∀ id session, engine.incoming.lookup id = some session → session.Heard
  mirrors : ∀ id, Mirrors (engine.streamBuffers id) (engine.incoming.lookup id)
  returned : engine.returned =
    (engine.streamBuffers engine.streamId).data.take (engine.streamBuffers engine.streamId).readOffset
  offset : (engine.streamBuffers engine.streamId).readOffset ≤ (engine.streamBuffers engine.streamId).data.length
  reported : engine.finReported = true → (engine.streamBuffers engine.streamId).finReceived = true ∧
    (engine.streamBuffers engine.streamId).readOffset = (engine.streamBuffers engine.streamId).data.length

theorem start_mirrored (streamId : Nat) : (start streamId).Mirrored where
  heard id session found := by simp [start] at found
  mirrors id := ⟨rfl, rfl⟩
  returned := rfl
  offset := Nat.le_refl _
  reported reported := by cases reported

theorem read_cases (buffer : StreamReadBuffer) (bufLen : Nat) (offset : buffer.readOffset ≤ buffer.data.length) :
    ∃ count, buffer.readOffset + count ≤ buffer.data.length ∧
      (buffer.read bufLen).1 = { buffer with readOffset := buffer.readOffset + count } ∧
      buffer.data.take (buffer.readOffset + count) = buffer.data.take buffer.readOffset ++ (buffer.read bufLen).2.1 ∧
      ((buffer.read bufLen).2.2 = true → buffer.finReceived = true ∧ buffer.readOffset + count = buffer.data.length) := by
  rw [StreamReadBuffer.read]
  dsimp only
  split
  · rename_i empty
    exact ⟨0, offset, rfl, (List.append_nil _).symm, fun fin => ⟨fin, by omega⟩⟩
  · refine ⟨min (buffer.data.length - buffer.readOffset) bufLen, by omega, rfl, ?_, fun fin => ?_⟩
    · rw [List.take_add]
    · rw [Bool.and_eq_true, decide_eq_true_eq] at fin
      exact ⟨fin.1, by omega⟩

section

variable (mirrored : engine.Mirrored)

include mirrored

theorem Mirrored.read (bufLen : Nat) : (engine.read bufLen).1.Mirrored := by
  obtain ⟨count, bound, buffer, out, fin⟩ := read_cases (engine.streamBuffers engine.streamId) bufLen mirrored.offset
  have ours : (engine.read bufLen).1.streamBuffers engine.streamId =
      ((engine.streamBuffers engine.streamId).read bufLen).1 := Function.update_self ..
  refine ⟨mirrored.heard, fun id => ?_, ?_, ?_, ?_⟩
  · by_cases same : id = engine.streamId
    · subst same
      rw [ours, buffer]
      exact mirrored.mirrors _
    · have other : (engine.read bufLen).1.streamBuffers id = engine.streamBuffers id := Function.update_of_ne same ..
      rw [other]
      exact mirrored.mirrors id
  · show engine.returned ++ ((engine.streamBuffers engine.streamId).read bufLen).2.1 = _
    change _ = List.take ((engine.read bufLen).1.streamBuffers engine.streamId).readOffset
      ((engine.read bufLen).1.streamBuffers engine.streamId).data
    rw [ours, buffer, out, mirrored.returned]
  · change ((engine.read bufLen).1.streamBuffers engine.streamId).readOffset ≤
      ((engine.read bufLen).1.streamBuffers engine.streamId).data.length
    rw [ours, buffer]
    exact bound
  · change (engine.finReported || ((engine.streamBuffers engine.streamId).read bufLen).2.2) = true →
      ((engine.read bufLen).1.streamBuffers engine.streamId).finReceived = true ∧
      ((engine.read bufLen).1.streamBuffers engine.streamId).readOffset =
        ((engine.read bufLen).1.streamBuffers engine.streamId).data.length
    rw [ours, buffer, Bool.or_eq_true]
    rintro (before | now)
    · have reported := mirrored.reported before
      dsimp only
      exact ⟨reported.1, by omega⟩
    · exact fin now

theorem Mirrored.pulled {id : Nat} (read : engine.readFromQuicheToBuffer id = some next) :
    next.Mirrored := by
  rcases readFromQuicheToBuffer_cases read with ⟨_, same⟩ | ⟨session, later, result, found, received, same⟩
  · subst same
    exact mirrored
  obtain ⟨_, heard, reading⟩ := (mirrored.heard id session found).streamRecv received
  have mirrors := mirrored.mirrors id
  rw [found] at mirrors
  have others : ∀ other, other ≠ id → engine.filled id result other = engine.streamBuffers other := by
    intro other differs
    cases result with
    | error error => rfl
    | ok taken => exact Function.update_of_ne differs ..
  have ours : Mirrors (engine.filled id result id) (some later) ∧
      (engine.filled id result id).readOffset = (engine.streamBuffers id).readOffset ∧
      (∃ out, (engine.filled id result id).data = (engine.streamBuffers id).data ++ out ∧
        ((engine.streamBuffers id).finReceived = true → out = [])) ∧
      ((engine.streamBuffers id).finReceived = true → (engine.filled id result id).finReceived = true) := by
    cases reading with
    | nothing error delivered seen idle =>
      exact ⟨⟨mirrors.1.trans delivered.symm, mirrors.2.trans seen.symm⟩, rfl,
        ⟨[], (List.append_nil _).symm, fun _ => rfl⟩, fun fin => fin⟩
    | taken out delivered seen emitted exhausted =>
      have buffer : engine.filled id (.ok (out, later.recv.isFin)) id =
          (engine.streamBuffers id).append out later.recv.isFin := Function.update_self ..
      rw [buffer, StreamReadBuffer.append]
      refine ⟨⟨?_, ?_⟩, rfl, ⟨out, rfl, fun fin => ?_⟩, fun fin => ?_⟩
      · rw [delivered, ← mirrors.1]
      · rw [seen, ← mirrors.2]
      · exact exhausted (mirrors.2 ▸ fin)
      · dsimp only
        rw [fin, Bool.true_or]
  subst same
  refine ⟨fun other session known => ?_, fun other => ?_, ?_, ?_, ?_⟩
  · by_cases same : other = id
    · subst same
      rw [AList.lookup_insert] at known
      cases known
      exact heard
    · rw [AList.lookup_insert_ne same] at known
      exact mirrored.heard other session known
  · by_cases same : other = id
    · subst same
      rw [AList.lookup_insert]
      exact ours.1
    · dsimp only
      rw [AList.lookup_insert_ne same, others other same]
      exact mirrored.mirrors other
  all_goals dsimp only
  all_goals by_cases same : engine.streamId = id
  · obtain ⟨_, offset, ⟨out, data, _⟩, _⟩ := ours
    have bound := mirrored.offset
    subst same
    rw [offset, data, List.take_append_of_le_length bound, mirrored.returned]
  · rw [others _ same]
    exact mirrored.returned
  · obtain ⟨_, offset, ⟨out, data, _⟩, _⟩ := ours
    have bound := mirrored.offset
    subst same
    rw [offset, data, List.length_append]
    omega
  · rw [others _ same]
    exact mirrored.offset
  · obtain ⟨_, offset, ⟨out, data, exhausted⟩, kept⟩ := ours
    intro reported
    have before := mirrored.reported reported
    subst same
    rw [offset, data, exhausted before.1, List.append_nil]
    exact ⟨kept before.1, before.2⟩
  · rw [others _ same]
    exact mirrored.reported

theorem Mirrored.step (stepped : engine.step op = some next) : next.Mirrored := by
  cases step_streams stepped with
  | kept streamId incoming buffers returned finReported readable flushed =>
    refine ⟨?_, ?_, ?_, ?_, ?_⟩
    · rw [incoming]
      exact mirrored.heard
    · rw [incoming, buffers]
      exact mirrored.mirrors
    · rw [returned, buffers, streamId]
      exact mirrored.returned
    · rw [buffers, streamId]
      exact mirrored.offset
    · rw [finReported, buffers, streamId]
      exact mirrored.reported
  | read bufLen same =>
    rw [same]
    exact mirrored.read bufLen
  | arrived id session flushed idle heard mirrors late same =>
    subst same
    refine ⟨fun other stored known => ?_, fun other => ?_, mirrored.returned, mirrored.offset, mirrored.reported⟩
    · by_cases same : other = id
      · subst same
        rw [AList.lookup_insert] at known
        cases known
        exact heard fun old found => mirrored.heard other old found
      · rw [AList.lookup_insert_ne same] at known
        exact mirrored.heard other stored known
    · by_cases same : other = id
      · subst same
        rw [AList.lookup_insert]
        exact mirrors _ (mirrored.mirrors other)
      · dsimp only
        rw [AList.lookup_insert_ne same]
        exact mirrored.mirrors other
  | swept calls order readable keeps streamId incoming buffers returned finReported listed =>
    refine ⟨?_, ?_, ?_, ?_, ?_⟩
    · rw [incoming]
      exact mirrored.heard
    · rw [incoming, buffers]
      exact mirrored.mirrors
    · rw [returned, buffers, streamId]
      exact mirrored.returned
    · rw [buffers, streamId]
      exact mirrored.offset
    · rw [finReported, buffers, streamId]
      exact mirrored.reported
  | pulled id rest readable read =>
    have before : { engine with readable := rest }.Mirrored :=
      ⟨mirrored.heard, mirrored.mirrors, mirrored.returned, mirrored.offset, mirrored.reported⟩
    exact before.pulled read

theorem Mirrored.readsInOrder : engine.ReadsInOrder := by
  have mirrors := mirrored.mirrors engine.streamId
  have bound := mirrored.offset
  have returned := mirrored.returned
  cases found : engine.incoming.lookup engine.streamId with
  | none =>
    rw [found] at mirrors
    rw [mirrors.1, List.take_nil] at returned
    refine ⟨fun index below => ?_, fun reported => ?_⟩
    · rw [returned] at below
      exact (Nat.not_lt_zero _ below).elim
    · have fin := (mirrored.reported reported).1
      rw [mirrors.2] at fin
      cases fin
  | some session =>
    rw [found] at mirrors
    have heard := mirrored.heard _ session found
    rw [mirrors.1] at returned bound
    refine ⟨fun index below => ?_, fun reported => ?_⟩
    · rw [returned, List.length_take_of_le bound] at below
      rw [returned, List.getElem?_take_of_lt below, streamByte, found]
      exact heard.first index (Nat.lt_of_lt_of_le below bound)
    · obtain ⟨fin, all⟩ := mirrored.reported reported
      obtain ⟨last, member, isFin, ends⟩ := heard.seen (mirrors.2 ▸ fin)
      refine ⟨session, found, last, member, isFin, ?_⟩
      rw [ends, returned, List.length_take_of_le bound, all, mirrors.1]

end

/-- What the current `flushEgress` still has to read fits into one read, the rest is in the
buffers. -/
structure Pending (engine : Engine) : Prop where
  mirrored : engine.Mirrored
  nodup : engine.readable.Nodup
  fits : ∀ id ∈ engine.readable, ∀ session, engine.incoming.lookup id = some session →
    session.recv.gapWithin tempBufSize = true
  moved : engine.flushed = true → ∀ id, id ∉ engine.readable → ∀ session,
    engine.incoming.lookup id = some session → Moved session (engine.streamBuffers id)

theorem start_pending (streamId : Nat) : (start streamId).Pending where
  mirrored := start_mirrored streamId
  nodup := .nil
  fits id member := by cases member
  moved flushed := by cases flushed

theorem moved_of_idle {session : RecvBuf.Session} (heard : session.Heard) (idle : session.recv.ready = false)
    (buffer : StreamReadBuffer) : Moved session buffer := by
  intro alive
  refine ⟨(heard.alive alive).valid.missing_of_not_ready idle, fun readyNow => ?_⟩
  rw [idle] at readyNow
  cases readyNow

theorem Pending.pulled {id : Nat} {rest : List Nat} (pending : engine.Pending) (readable : engine.readable = id :: rest)
    (read : { engine with readable := rest }.readFromQuicheToBuffer id = some next) : next.Pending := by
  have mirrored := pending.mirrored
  have before : { engine with readable := rest }.Mirrored :=
    ⟨mirrored.heard, mirrored.mirrors, mirrored.returned, mirrored.offset, mirrored.reported⟩
  have after := before.pulled read
  have nodup := pending.nodup
  have fits := pending.fits
  have moved := pending.moved
  rw [readable] at nodup fits moved
  obtain ⟨fresh, nodup⟩ := List.nodup_cons.mp nodup
  rcases readFromQuicheToBuffer_cases read with ⟨missing, same⟩ | ⟨session, later, result, found, received, same⟩
  · subst same
    refine ⟨after, nodup, fun other member => fits other (List.mem_cons_of_mem _ member), ?_⟩
    intro flushed other unlisted session known
    by_cases same : other = id
    · subst same
      cases missing.symm.trans known
    · exact moved flushed other (fun member => (List.mem_cons.mp member).elim same unlisted) session known
  · obtain ⟨_, heard, reading⟩ := (mirrored.heard id session found).streamRecv received
    have fit := fits id List.mem_cons_self session found
    have incoming : next.incoming = engine.incoming.insert id later := by rw [same]
    have buffers : next.streamBuffers = engine.filled id result := by
      rw [same]
      cases result <;> rfl
    have listed : next.readable = rest := by rw [same]
    have flushed : next.flushed = engine.flushed := by rw [same]
    refine ⟨after, listed ▸ nodup, ?_, ?_⟩
    · rw [listed, incoming]
      intro other member stored known
      have differs : other ≠ id := fun same => fresh (same ▸ member)
      rw [AList.lookup_insert_ne differs] at known
      exact fits other (List.mem_cons_of_mem _ member) stored known
    · rw [listed, incoming, flushed]
      intro flushed other unlisted stored known
      by_cases ours : other = id
      · subst ours
        have mirrors := after.mirrors other
        rw [incoming, AList.lookup_insert] at mirrors
        rw [AList.lookup_insert] at known
        cases known
        intro alive
        cases reading with
        | nothing error delivered seen idle => exact moved_of_idle heard (idle alive) _ alive
        | taken out delivered seen emitted exhausted =>
          have valid := ((mirrored.heard other session found).alive (emitted.error ▸ alive)).valid
          refine ⟨emitted.dry valid fit, fun _ isFin => ?_⟩
          rw [mirrors.2, seen, isFin, Bool.or_true]
      · rw [AList.lookup_insert_ne ours] at known
        have kept : next.streamBuffers other = engine.streamBuffers other := by
          rw [buffers]
          cases result with
          | error error => rfl
          | ok taken => exact Function.update_of_ne ours ..
        rw [kept]
        exact moved flushed other (fun member => (List.mem_cons.mp member).elim ours unlisted) stored known

theorem Pending.swept (pending : engine.Pending)
    (stepped : engine.step op = some next) (readable : engine.Readable order)
    (keeps : engine.keepsUp calls order = true) (incoming : next.incoming = engine.incoming)
    (listed : next.readable = if makesAll calls then order else []) : next.Pending := by
  rw [keepsUp, Bool.and_eq_true, List.all_eq_true] at keeps
  rw [keeps.1, if_pos rfl] at listed
  refine ⟨pending.mirrored.step stepped, ?_, ?_, ?_⟩
  · rw [listed, readable.nodup_iff]
    exact engine.incoming.nodupKeys.filter _
  · rw [listed, incoming]
    intro id member session known
    have room := keeps.2 id member
    rwa [known, Option.all_some] at room
  · rw [listed, incoming]
    intro _ id unlisted session known
    have idle : session.recv.ready = false := by
      by_contra readyNow
      rw [Bool.not_eq_false] at readyNow
      refine unlisted (readable.mem_iff.mpr (List.mem_filter.mpr ⟨?_, ?_⟩))
      · exact AList.lookup_isSome.mp (by rw [known]; rfl)
      · rw [known, Option.any_some]
        exact readyNow
    exact moved_of_idle (pending.mirrored.heard id session known) idle _

theorem Pending.step (pending : engine.Pending) (reads : engine.readsAll op = true)
    (stepped : engine.step op = some next) : next.Pending := by
  have mirrored := pending.mirrored.step stepped
  cases step_streams stepped with
  | kept streamId incoming buffers returned finReported readable flushed =>
    refine ⟨mirrored, readable ▸ pending.nodup, ?_, ?_⟩
    · rw [readable, incoming]
      exact pending.fits
    · rw [readable, incoming, buffers, flushed]
      exact pending.moved
  | read bufLen same =>
    subst same
    refine ⟨mirrored, pending.nodup, pending.fits, fun flushed id unlisted session known => ?_⟩
    change engine.incoming.lookup id = some session at known
    have moved := pending.moved flushed id unlisted session known
    have received : ((engine.read bufLen).1.streamBuffers id).finReceived = (engine.streamBuffers id).finReceived := by
      have ours := mirrored.mirrors id
      have before := pending.mirrored.mirrors id
      rw [known] at before
      change Mirrors _ (engine.incoming.lookup id) at ours
      rw [known] at ours
      rw [ours.2, before.2]
    intro alive
    rw [received]
    exact moved alive
  | arrived id session flushed idle heard mirrors late same =>
    subst same
    refine ⟨mirrored, pending.nodup, ?_, ?_⟩
    · intro other member
      rw [idle] at member
      cases member
    · intro flushed other unlisted stored known
      obtain ⟨before, old, found, carried⟩ := late flushed
      by_cases same : other = id
      · subst same
        rw [AList.lookup_insert] at known
        cases known
        exact carried _ (pending.moved before other unlisted old found)
      · rw [AList.lookup_insert_ne same] at known
        exact pending.moved before other unlisted stored known
  | swept calls order readable keeps streamId incoming buffers returned finReported listed =>
    exact pending.swept stepped readable (keeps ▸ reads) incoming listed
  | pulled id rest readable read => exact pending.pulled readable read

/-- In every run the application reads the default stream in order, and the end at its end. If
each `flushEgress` keeps up with the streams, none leaves anything behind. -/
theorem read_path_exact {streamId : Nat} {ops : List Op} {final : Engine}
    (completed : machine.run (start streamId) ops = some final) : final.ReadsInOrder ∧
      (machine.Guarded (fun engine op => engine.readsAll op = true) (start streamId) ops → final.LeavesNothing) := by
  constructor
  · have preserved : ∀ engine op next, engine.Mirrored → machine.step engine op = some next → next.Mirrored :=
      fun _ _ _ mirrored stepped => mirrored.step stepped
    exact (machine.run_keeps preserved (start_mirrored streamId) completed).readsInOrder
  · intro reads
    have preserved : ∀ engine op next, engine.Pending → engine.readsAll op = true →
        machine.step engine op = some next → next.Pending :=
      fun _ _ _ pending reads stepped => pending.step reads stepped
    have pending := machine.run_keeps_of_guarded preserved (start_pending streamId) reads completed
    intro flushed done id session known
    exact pending.moved flushed id (by rw [done]; exact List.not_mem_nil) session known

def arrival (size : Nat) (small : size ≤ 65536) : List Op :=
  let chunk (off : Nat) (fin : Bool) (near : off ≤ 65536) : RecvBuf.Chunk :=
    ⟨List.replicate size 7, off, fin, by rw [List.length_replicate]; omega⟩
  [.poll, .recv 4 200000 200000 (chunk 0 false (Nat.zero_le _)), .recv 4 200000 200000 (chunk size true small),
    .flushEgress [] [.done] [4], .readFromQuicheToBuffer, .read 100]

theorem read_path_exact_small :
    ∃ final, machine.run (start 4) (arrival 50 (by decide)) = some final ∧ final.ReadsInOrder ∧
      final.LeavesNothing := by
  have returns : (machine.run (start 4) (arrival 50 (by decide))).isSome = true := by decide +kernel
  obtain ⟨final, completed⟩ := Option.isSome_iff_exists.mp returns
  obtain ⟨reads, leaves⟩ := read_path_exact completed
  exact ⟨final, completed, reads, leaves (by decide +kernel)⟩

/-- The end of the second chunk is left in the transport, with the FIN. -/
theorem arrival_left_behind : (machine.run (start 4) (arrival 32769 (by decide))).any fun final =>
      final.flushed && final.readable.isEmpty && (final.incoming.lookup 4).any fun session =>
        session.recv.ready && decide (session.recv.off = 65536) && decide (session.recv.len = 65538) &&
          !(final.streamBuffers 4).finReceived := by
  decide +kernel

end Engine

end Quiche
