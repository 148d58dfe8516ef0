import Quiche.Stream.SendBuf.Queue

namespace Quiche.SendBuf

open Data

variable {stream bytes more : List UInt8} {send next : SendBuf} {reserve : SendReserve} {fin : Bool}

theorem Shows.append {buf : RangeBuf} (showing : Shows stream buf) (within : buf.maxOff ≤ stream.length)
    (more : List UInt8) : Shows (stream ++ more) buf := by
  rw [RangeBuf.maxOff_eq_view] at within
  rw [Shows, List.drop_append_of_le_length (by omega),
    List.take_append_of_le_length (by rw [List.length_drop]; omega)]
  exact showing

/-- Buffers that hold exactly `bytes`, unread, at the end of the stream. -/
structure Fresh (stream bytes : List UInt8) (bufs : List RangeBuf) : Prop where
  contiguous : Contiguous stream.length bufs (stream.length + bytes.length)
  showing : ∀ buf ∈ bufs, Shows (stream ++ bytes) buf
  unread : ∀ place, Unread bufs place ↔ stream.length ≤ place ∧ place < stream.length + bytes.length
  unreadLen_eq : unreadLen bufs = bytes.length

theorem fresh_nil (stream : List UInt8) : Fresh stream [] [] where
  contiguous := rfl
  showing := by simp
  unread := by
    intro place
    simp only [unread_nil, List.length_nil, Nat.add_zero, false_iff]
    omega
  unreadLen_eq := rfl

theorem Fresh.cons {bufs : List RangeBuf} (nonempty : bytes ≠ []) (fin : Bool)
    (rest : Fresh (stream ++ bytes) more bufs) :
    Fresh stream (bytes ++ more) (.fromBytes bytes stream.length fin :: bufs) where
  contiguous := by
    refine ⟨rfl, List.length_pos_of_ne_nil nonempty, ?_⟩
    have following := rest.contiguous
    rw [List.length_append] at following
    rw [List.length_append, ← Nat.add_assoc]
    exact following
  showing := by
    refine List.forall_mem_cons.mpr ⟨?_, ?_⟩
    · rw [Shows, RangeBuf.fromBytes_view]
      show bytes = ((stream ++ (bytes ++ more)).drop stream.length).take bytes.length
      rw [List.drop_left, List.take_left]
    · rw [← List.append_assoc]
      exact rest.showing
  unread := by
    intro place
    rw [unread_cons, rest.unread, RangeBuf.Covers, RangeBuf.fromBytes_off, RangeBuf.fromBytes_maxOff,
      List.length_append, List.length_append]
    omega
  unreadLen_eq := by
    rw [unreadLen_cons, rest.unreadLen_eq, RangeBuf.fromBytes_len, List.length_append]

/-- The reservation after `count` bytes of it were stored in the given buffers. -/
def filled (reserve : SendReserve) (bufs : List RangeBuf) (count : Nat) : SendReserve :=
  { reserve with
    inner :=
      { reserve.inner with
        data := reserve.inner.data ++ bufs
        off := reserve.inner.off + count
        len := reserve.inner.len + count }
    reserved := reserve.reserved - count }

theorem appendBuf_eq (reserve : SendReserve) {buf : List UInt8} (fits : buf.length ≤ reserve.reserved) :
    reserve.appendBuf buf = .ok (filled reserve
      [.fromBytes buf reserve.inner.off (reserve.reserved == buf.length && reserve.fin)] buf.length) :=
  if_neg (Nat.not_lt.mpr fits)

theorem filled_filled (reserve : SendReserve) (left right : List RangeBuf) (first second : Nat) :
    filled (filled reserve left first) right second = filled reserve (left ++ right) (first + second) := by
  simp [filled, Nat.add_assoc, Nat.sub_sub]

theorem appendBufs_exists (stream : List UInt8) (reserve : SendReserve) {bufs : List (List UInt8)}
    (nonempty : ∀ buf ∈ bufs, buf ≠ []) (room : bufs.flatten.length ≤ reserve.reserved)
    (stored : reserve.inner.off = stream.length) : ∃ fresh, Fresh stream bufs.flatten fresh ∧
      reserve.appendBufs bufs = .ok (filled reserve fresh bufs.flatten.length) := by
  induction bufs generalizing reserve stream with
  | nil => exact ⟨[], fresh_nil stream, by simp [SendReserve.appendBufs, filled]⟩
  | cons buf rest ih =>
    obtain ⟨nonemptyBuf, nonemptyRest⟩ := List.forall_mem_cons.mp nonempty
    rw [List.flatten_cons, List.length_append] at room
    have appended := appendBuf_eq reserve (show buf.length ≤ reserve.reserved by omega)
    generalize (reserve.reserved == buf.length && reserve.fin) = last at appended
    rw [stored] at appended
    obtain ⟨fresh, freshRest, result⟩ := ih (stream ++ buf)
      (filled reserve [.fromBytes buf stream.length last] buf.length) nonemptyRest
      (Nat.le_sub_of_add_le (by omega)) (by simp [filled, stored])
    refine ⟨_, freshRest.cons nonemptyBuf last, ?_⟩
    rw [SendReserve.appendBufs, appended]
    refine Eq.trans result ?_
    rw [filled_filled, List.singleton_append, List.flatten_cons, List.length_append]

variable {fuel len : Nat}

theorem chunks_flatten {size : Nat} (positive : 0 < size) (enough : bytes.length ≤ fuel) :
    (chunks size fuel bytes).flatten = bytes := by
  induction fuel generalizing bytes with
  | zero => simp [chunks, List.eq_nil_of_length_eq_zero (Nat.le_zero.mp enough)]
  | succ fuel ih =>
    cases bytes with
    | nil => rfl
    | cons byte bytes =>
      have shorter : ((byte :: bytes).drop size).length ≤ fuel := by
        rw [List.length_drop, List.length_cons]
        rw [List.length_cons] at enough
        omega
      rw [chunks, List.flatten_cons, ih shorter, List.take_append_drop]
      · simp

theorem chunks_nonempty {size : Nat} (positive : 0 < size) : ∀ chunk ∈ chunks size fuel bytes, chunk ≠ [] := by
  induction fuel generalizing bytes with
  | zero => simp [chunks]
  | succ fuel ih =>
    cases bytes with
    | nil => simp [chunks]
    | cons byte bytes =>
      rw [chunks]
      · refine List.forall_mem_cons.mpr ⟨?_, ih⟩
        obtain ⟨less, rfl⟩ := Nat.exists_eq_succ_of_ne_zero (Nat.ne_of_gt positive)
        simp
      · simp

section Storing

/-- What `write` and `append_buf` have in common: `bufs` splits the bytes for which there was room. -/
def storing (send : SendBuf) (len : Nat) (fin : Bool) (bufs : Nat → List (List UInt8)) :
    Option (SendBuf × Except Error Nat) := do
  match ← send.reserveForWrite len fin with
  | .error error => return (send, .error error)
  | .ok reserve =>
    match reserve.appendBufs (bufs reserve.reserved) with
    | .error _ => none
    | .ok filled => return (← filled.finish, .ok reserve.reserved)

def writeBufs (data : List UInt8) (size : Nat) : List (List UInt8) := chunks sendBufferSize data.length (data.take size)

def wholeBuf (data : List UInt8) (size : Nat) : List (List UInt8) := if size = 0 then [] else [data.take size]

theorem writeBufs_zero (data : List UInt8) : writeBufs data 0 = [] := by
  cases data <;> rfl

theorem write_eq_storing (send : SendBuf) (data : List UInt8) (fin : Bool) :
    send.write data fin = send.storing data.length fin (writeBufs data) := by
  rw [write, storing]
  rcases send.reserveForWrite data.length fin with _ | error | reserve
  · rfl
  · rfl
  · by_cases empty : reserve.reserved = 0
    · simp only [Option.bind_eq_bind, Option.bind_some, empty, writeBufs_zero]
      rfl
    · simp only [Option.bind_eq_bind, Option.bind_some, if_neg empty]
      rfl

theorem map_appendBuf (send : SendBuf) (data : List UInt8) (cap : Nat) (fin : Bool) :
    (send.appendBuf data cap fin).map (fun (next, result) => (next, result.map (·.1))) =
      send.storing (min cap data.length) fin (wholeBuf data) := by
  rw [appendBuf, storing]
  rcases send.reserveForWrite (min cap data.length) fin with _ | error | reserve
  · rfl
  · rfl
  · by_cases empty : reserve.reserved = 0
    · simp only [Option.bind_eq_bind, Option.bind_some, if_pos empty, wholeBuf, SendReserve.appendBufs]
      rw [empty]
      cases reserve.finish <;> rfl
    · simp only [Option.bind_eq_bind, Option.bind_some, if_neg empty, wholeBuf, SendReserve.appendBufs]
      cases reserve.appendBuf (data.take reserve.reserved) with
      | error error => rfl
      | ok filled =>
        show Option.map _ (filled.finish.bind _) = filled.finish.bind _
        cases filled.finish <;> rfl

theorem storing_of_appendBuf {data : List UInt8} {cap : Nat} {result : Except Error (Nat × Option (List UInt8))}
    (appended : send.appendBuf data cap fin = some (next, result)) :
    send.storing (min cap data.length) fin (wholeBuf data) = some (next, result.map (·.1)) := by
  rw [← map_appendBuf, appended]
  rfl

theorem appendBuf_of_storing {data : List UInt8} {cap : Nat} {result : Except Error Nat}
    (stored : send.storing (min cap data.length) fin (wholeBuf data) = some (next, result)) :
    ∃ taken, send.appendBuf data cap fin = some (next, taken) ∧ taken.map (·.1) = result := by
  rw [← map_appendBuf] at stored
  obtain ⟨⟨_, taken⟩, appended, same⟩ := Option.map_eq_some_iff.mp stored
  cases same
  exact ⟨taken, appended, rfl⟩

/-- The buffers are those of the first bytes of the data. -/
def Splits (data : List UInt8) (len : Nat) (bufs : Nat → List (List UInt8)) : Prop :=
  ∀ size ≤ len, (bufs size).flatten = data.take size ∧ ∀ buf ∈ bufs size, buf ≠ []

theorem writeBufs_splits (data : List UInt8) : Splits data data.length (writeBufs data) := by
  intro size bounded
  refine ⟨chunks_flatten (by decide) ?_, chunks_nonempty (by decide)⟩
  rw [List.length_take]
  exact Nat.min_le_right _ _

theorem wholeBuf_splits (data : List UInt8) {len : Nat} (short : len ≤ data.length) :
    Splits data len (wholeBuf data) := by
  intro size bounded
  rw [wholeBuf]
  split
  · rename_i empty
    rw [empty]
    exact ⟨rfl, nofun⟩
  · rename_i nonempty
    refine ⟨List.append_nil _, fun buf member => ?_⟩
    rw [List.mem_singleton.mp member, Ne, ← List.length_eq_zero_iff, List.length_take]
    omega

end Storing

theorem Valid.ackOff_le (valid : Valid stream send) : send.ackOff ≤ send.off := by
  have within := valid.acked.within
  unfold ackOff firstStop
  split
  · rename_i stop rest iter
    exact within (0, stop) (by simp [iter])
  · exact Nat.zero_le _

/-- What a write of `len` bytes that was not refused does: the first of them, `bytes`,
are queued. -/
structure Appended (send : SendBuf) (len : Nat) (fin : Bool) (bytes : List UInt8) (next : SendBuf) : Prop where
  off : next.off = send.off + bytes.length
  maxData : next.maxData = send.maxData
  acked : next.acked = send.acked
  unread : ∀ place, Unread next.data place ↔
    Unread send.data place ∨ (send.off ≤ place ∧ place < send.off + bytes.length)
  /-- The final offset is the end of the data, and is only set by a write with `fin`
  that is queued whole. -/
  finOff : next.finOff = send.finOff ∨ (fin = true ∧ bytes.length = len ∧ next.finOff = some next.off)

/-- As much was reserved as the limit allows. -/
structure Reserved (send : SendBuf) (len : Nat) (fin : Bool) (reserve : SendReserve) : Prop where
  size : reserve.reserved = min len (send.maxData - send.off)
  inner : reserve.inner = send ∧ send.finOff = none ∨
    (fin = true ∧ reserve.reserved = len ∧ reserve.inner = { send with finOff := some (send.off + len) })

theorem finOff_of_admitted (valid : Valid stream send)
    (admitted : ¬ breaksFinal send.finOff (send.off + len) false = true) : send.finOff = none := by
  cases known : send.finOff with
  | none => rfl
  | some final =>
    have same := valid.finOff_eq final known
    simp only [known, breaksFinal, Bool.or_eq_true, Bool.and_eq_true, decide_eq_true_eq,
      beq_iff_eq, Bool.not_false, and_true] at admitted
    omega

theorem reserveForWrite_exists (valid : Valid stream send) (len : Nat) (fin : Bool) :
    ∃ result, send.reserveForWrite len fin = some result ∧
      ∀ reserve, result = .ok reserve → Reserved send len fin reserve := by
  have capacity : send.cap = some (.ok (send.maxData - send.off)) := by
    rw [cap, valid.running, subChecked_of_le valid.off_le]
    rfl
  have acked := valid.ackOff_le
  have size : (if len > send.maxData - send.off then send.maxData - send.off else len) =
      min len (send.maxData - send.off) := by
    split <;> omega
  have complete : (if len > send.maxData - send.off then false else fin) = true →
      fin = true ∧ min len (send.maxData - send.off) = len := by
    split
    · simp
    · intro isFin
      exact ⟨isFin, by omega⟩
  rw [reserveForWrite, capacity]
  dsimp only
  rw [size]
  generalize (if len > send.maxData - send.off then false else fin) = recorded at complete
  by_cases refused : breaksFinal send.finOff (send.off + len) recorded = true
  · rw [if_pos refused]
    exact ⟨_, rfl, by simp⟩
  · rw [if_neg refused]
    refine ⟨_, rfl, ?_⟩
    intro reserve done
    obtain rfl := Except.ok.inj done
    cases recorded with
    | false =>
      refine ⟨?_, .inl ⟨rfl, finOff_of_admitted valid refused⟩⟩
      show (if send.ackOff ≥ send.off + len then 0 else _) = _
      split <;> omega
    | true =>
      obtain ⟨isFin, whole⟩ := complete rfl
      have reserved : (if send.ackOff ≥ send.off + len then 0
          else min len (send.maxData - send.off)) = len := by
        split <;> omega
      exact ⟨reserved.trans whole.symm, .inr ⟨isFin, reserved, rfl⟩⟩

theorem Reserved.fill (valid : Valid stream send) (reserved : Reserved send len fin reserve)
    {fresh : List RangeBuf} (length : bytes.length = reserve.reserved) (stored : Fresh stream bytes fresh) :
    Valid (stream ++ bytes) (filled reserve fresh bytes.length).inner ∧
      Appended send len fin bytes (filled reserve fresh bytes.length).inner := by
  have size := reserved.size
  have limit := valid.off_le
  obtain ⟨base, below, contiguous⟩ := valid.contiguous
  have queue : ∃ finOff, reserve.inner = { send with finOff := finOff } ∧
      (∀ final, finOff = some final → final = send.off + bytes.length) ∧ (finOff = send.finOff ∨
        (fin = true ∧ bytes.length = len ∧ finOff = some (send.off + bytes.length))) := by
    cases reserved.inner with
    | inl learned =>
      obtain ⟨same, unknown⟩ := learned
      exact ⟨send.finOff, same, by simp [unknown], .inl rfl⟩
    | inr learned =>
      obtain ⟨isFin, whole, same⟩ := learned
      rw [length, whole]
      exact ⟨some (send.off + len), same, by simp, .inr ⟨isFin, rfl, rfl⟩⟩
  obtain ⟨finOff, inner, ends, recorded⟩ := queue
  simp only [filled, inner]
  constructor
  · exact {
      contiguous := by
        refine ⟨base, below, contiguous_append.mpr ⟨send.off, contiguous, ?_⟩⟩
        rw [valid.off_eq]
        exact stored.contiguous
      showing := by
        intro buf member
        cases List.mem_append.mp member with
        | inl old =>
          exact (valid.showing buf old).append (valid.off_eq ▸ (contiguous.bounds buf old).2) bytes
        | inr new => exact stored.showing buf new
      off_eq := by simp [valid.off_eq]
      pos_le := by
        rw [List.length_append]
        exact Nat.le_add_right_of_le valid.pos_le
      consumed := by
        rw [List.take_append_of_le_length valid.pos_le]
        exact valid.consumed
      off_le := by
        dsimp only
        omega
      small := valid.small
      unreadLen_le := by
        rw [unreadLen_append, stored.unreadLen_eq]
        exact Nat.add_le_add_right valid.unreadLen_le _
      acked := valid.acked.mono (Nat.le_add_right _ _)
      running := valid.running
      finOff_eq := ends }
  · exact {
      off := rfl
      maxData := rfl
      acked := rfl
      unread := by
        intro place
        rw [unread_append, stored.unread, valid.off_eq]
      finOff := recorded }

theorem filled_finish {fresh : List RangeBuf} :
    (filled reserve fresh reserve.reserved).finish = some (filled reserve fresh reserve.reserved).inner :=
  if_pos (Nat.sub_self _)

section

variable (valid : Valid stream send) (data : List UInt8)

include valid

theorem storing_spec (fin : Bool) {len : Nat}
    {bufs : Nat → List (List UInt8)} (short : len ≤ data.length) (splits : Splits data len bufs) :
    ∃ next result, send.storing len fin bufs = some (next, result) ∧ ((∃ error, result = .error error ∧ next = send) ∨
        ∃ count, result = .ok count ∧ Valid (stream ++ data.take count) next ∧
          Appended send len fin (data.take count) next) := by
  obtain ⟨result, tried, reservation⟩ := reserveForWrite_exists valid len fin
  rw [storing, tried]
  cases result with
  | error error => exact ⟨send, .error error, rfl, .inl ⟨error, rfl, rfl⟩⟩
  | ok reserve =>
    have reserved := reservation reserve rfl
    have size := reserved.size
    have length : (data.take reserve.reserved).length = reserve.reserved := by
      rw [List.length_take]
      omega
    obtain ⟨flat, nonempty⟩ := splits reserve.reserved (by omega)
    have located : reserve.inner.off = stream.length := by
      rcases reserved.inner with ⟨same, _⟩ | ⟨_, _, same⟩ <;> rw [same] <;> exact valid.off_eq
    obtain ⟨fresh, stored, result⟩ := appendBufs_exists stream reserve nonempty
      (Nat.le_of_eq ((congrArg List.length flat).trans length)) located
    rw [flat] at stored result
    obtain ⟨nextValid, appended⟩ := reserved.fill valid length stored
    refine ⟨_, .ok reserve.reserved, ?_, .inr ⟨reserve.reserved, rfl, nextValid, appended⟩⟩
    simp [result, length, filled_finish]

theorem write_spec (fin : Bool) :
    ∃ next result, send.write data fin = some (next, result) ∧ ((∃ error, result = .error error ∧ next = send) ∨
        ∃ count, result = .ok count ∧ Valid (stream ++ data.take count) next ∧
          Appended send data.length fin (data.take count) next) := by
  rw [write_eq_storing]
  exact storing_spec valid data fin (Nat.le_refl _) (writeBufs_splits data)

theorem appendBuf_spec (cap : Nat) (fin : Bool) :
    ∃ next result, send.appendBuf data cap fin = some (next, result) ∧ ((∃ error, result = .error error ∧ next = send) ∨
        ∃ count remainder, result = .ok (count, remainder) ∧ Valid (stream ++ data.take count) next ∧
          Appended send (min cap data.length) fin (data.take count) next) := by
  have short := Nat.min_le_right cap data.length
  obtain ⟨next, result, stored, outcome⟩ := storing_spec valid data fin short (wholeBuf_splits data short)
  obtain ⟨taken, appended, rfl⟩ := appendBuf_of_storing stored
  refine ⟨next, taken, appended, ?_⟩
  cases taken with
  | error error =>
    rcases outcome with ⟨_, _, kept⟩ | ⟨_, given, _⟩
    · exact .inl ⟨error, rfl, kept⟩
    · cases given
  | ok taken =>
    rcases outcome with ⟨_, refused, _⟩ | ⟨_, given, outcome⟩
    · cases refused
    · cases given
      exact .inr ⟨taken.1, taken.2, rfl, outcome⟩

end

section Room

def whole (send : SendBuf) (len : Nat) (fin : Bool) : SendReserve where
  inner := if fin then { send with finOff := some (send.off + len) } else send
  reserved := len
  fin := fin

theorem reserveForWrite_room (valid : Valid stream send) (open_ : send.finOff = none) {len : Nat}
    (room : len ≤ send.maxData - send.off) (fin : Bool) :
    send.reserveForWrite len fin = some (.ok (whole send len fin)) := by
  have capacity : send.cap = some (.ok (send.maxData - send.off)) := by
    rw [cap, valid.running, subChecked_of_le valid.off_le]
    rfl
  have acked := valid.ackOff_le
  have ackOff : (if fin then { send with finOff := some (send.off + len) } else send).ackOff = send.ackOff := by
    cases fin <;> rfl
  have reserved : (if send.ackOff ≥ send.off + len then 0 else len) = len := by
    split <;> omega
  rw [reserveForWrite, capacity]
  dsimp only
  rw [if_neg (Nat.not_lt.mpr room), if_neg (Nat.not_lt.mpr room), open_, breaksFinal, if_neg (by simp), ackOff,
    reserved, whole]

theorem whole_reserved (open_ : send.finOff = none) {len : Nat} (room : len ≤ send.maxData - send.off)
    (fin : Bool) : Reserved send len fin (whole send len fin) where
  size := (Nat.min_eq_left room).symm
  inner := by
    cases fin with
    | false => exact .inl ⟨rfl, open_⟩
    | true => exact .inr ⟨rfl, rfl, rfl⟩

/-- What a write does that fits. -/
structure Stored (stream : List UInt8) (send : SendBuf) (bytes : List UInt8) (fin : Bool) (next : SendBuf) : Prop where
  valid : Valid (stream ++ bytes) next
  maxData : next.maxData = send.maxData
  finOff : next.finOff = if fin then some next.off else none

theorem stored_of_filled (valid : Valid stream send) (open_ : send.finOff = none)
    (room : bytes.length ≤ send.maxData - send.off) (fin : Bool) {fresh : List RangeBuf}
    (stored : Fresh stream bytes fresh) :
    Stored stream send bytes fin (filled (whole send bytes.length fin) fresh bytes.length).inner := by
  obtain ⟨nextValid, appended⟩ := (whole_reserved open_ room fin).fill valid rfl stored
  refine ⟨nextValid, appended.maxData, ?_⟩
  rw [appended.off]
  cases fin with
  | false => exact open_
  | true => rfl

theorem whole_off (send : SendBuf) (len : Nat) (fin : Bool) : (whole send len fin).inner.off = send.off := by
  cases fin <;> rfl

section

variable (valid : Valid stream send)

include valid

section

variable (open_ : send.finOff = none) (data : List UInt8)

include open_

theorem storing_room (fin : Bool) {len : Nat}
    {bufs : Nat → List (List UInt8)} (short : len ≤ data.length) (splits : Splits data len bufs)
    (room : len ≤ send.maxData - send.off) :
    ∃ next, send.storing len fin bufs = some (next, .ok len) ∧ Stored stream send (data.take len) fin next := by
  rw [storing, reserveForWrite_room valid open_ room]
  have length : (data.take len).length = len := List.length_take_of_le short
  have reserved : (whole send len fin).reserved = len := rfl
  obtain ⟨flat, nonempty⟩ := splits len (Nat.le_refl len)
  obtain ⟨fresh, stored, result⟩ := appendBufs_exists stream (whole send len fin) nonempty
    (Nat.le_of_eq ((congrArg List.length flat).trans length)) ((whole_off send _ fin).trans valid.off_eq)
  rw [flat] at stored result
  have filling := stored_of_filled valid open_ (length.symm ▸ room) fin stored
  rw [length] at result filling
  have finished : (filled (whole send len fin) fresh len).finish = some (filled (whole send len fin) fresh len).inner :=
    filled_finish
  refine ⟨_, ?_, filling⟩
  simp [reserved, result, finished]

theorem write_room (room : data.length ≤ send.maxData - send.off) (fin : Bool) :
    ∃ next, send.write data fin = some (next, .ok data.length) ∧ Stored stream send data fin next := by
  have stored := storing_room valid open_ data fin (Nat.le_refl _) (writeBufs_splits data) room
  rwa [List.take_length, ← write_eq_storing] at stored

theorem appendBuf_room (cap : Nat) (room : min cap data.length ≤ send.maxData - send.off) (fin : Bool) :
    ∃ next remaining, send.appendBuf data cap fin = some (next, .ok (min cap data.length, remaining)) ∧
      Stored stream send (data.take cap) fin next := by
  have short := Nat.min_le_right cap data.length
  obtain ⟨next, stored, filling⟩ := storing_room valid open_ data fin short (wholeBuf_splits data short) room
  rw [← List.take_eq_take_min] at filling
  obtain ⟨taken, appended, given⟩ := appendBuf_of_storing stored
  cases taken with
  | error error => cases given
  | ok taken =>
    rw [← Except.ok.inj given]
    exact ⟨next, taken.2, appended, filling⟩

end

section

variable (closed : send.finOff ≠ none)

include closed

theorem reserveForWrite_closed {len : Nat}
    (more : 0 < len ∨ fin = false) : send.reserveForWrite len fin = some (.error .finalSize) := by
  obtain ⟨final, known⟩ := Option.ne_none_iff_exists'.mp closed
  obtain rfl := valid.finOff_eq final known
  have capacity : send.cap = some (.ok (send.maxData - send.off)) := by
    rw [cap, valid.running, subChecked_of_le valid.off_le]
    rfl
  rw [reserveForWrite, capacity]
  dsimp only
  rw [known, breaksFinal, if_pos]
  rcases more with more | rfl
  · simp [more]
  · simp
    omega

theorem write_closed (data : List UInt8) (fin : Bool)
    (more : 0 < data.length ∨ fin = false) : send.write data fin = some (send, .error .finalSize) := by
  rw [write, reserveForWrite_closed valid closed more]
  rfl

theorem appendBuf_closed (data : List UInt8) (cap : Nat) (fin : Bool) (more : 0 < min cap data.length) :
    send.appendBuf data cap fin = some (send, .error .finalSize) := by
  rw [appendBuf, reserveForWrite_closed valid closed (.inl more)]
  rfl

end

end

end Room

end Quiche.SendBuf
