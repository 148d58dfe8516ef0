import Quiche.Stream.SendBuf.Queue

namespace Quiche.SendBuf

open Data

variable {stream out : List UInt8} {send : SendBuf} {front rest passed kept : List RangeBuf}
  {nextOff outLen first last : Nat}

/-- What one `emit` does to the queue behind the cursor: the bytes `out` from
`nextOff` on are copied, and `rest` becomes `passed` and `kept` with the cursor in
between. -/
inductive Taken : List RangeBuf → Nat → List UInt8 → List RangeBuf → List RangeBuf → Prop where
  | stop (rest : List RangeBuf) (nextOff : Nat) : Taken rest nextOff [] [] rest
  | skip {buf : RangeBuf} {rest passed kept : List RangeBuf} {nextOff : Nat} {out : List UInt8}
      (empty : buf.isEmpty = true) (following : Taken rest nextOff out passed kept) :
      Taken (buf :: rest) nextOff out (buf :: passed) kept
  | whole {buf : RangeBuf} {rest passed kept : List RangeBuf} {out : List UInt8}
      (following : Taken rest buf.maxOff out passed kept) :
      Taken (buf :: rest) buf.off (buf.bytes ++ out)
        (buf.consume buf.len (Nat.le_refl _) :: passed) kept
  | part {buf : RangeBuf} {rest : List RangeBuf} {size : Nat} (bound : size ≤ buf.len) :
      Taken (buf :: rest) buf.off (buf.bytes.take size) [] (buf.consume size bound :: rest)

namespace Taken

section

variable (taken : Taken rest nextOff out passed kept)

include taken

theorem contiguous (queue : Contiguous first rest last) :
    Contiguous first (passed ++ kept) last := by
  induction taken generalizing first with
  | stop rest nextOff => exact queue
  | skip empty following ih => exact ⟨queue.1, queue.2.1, ih queue.2.2⟩
  | whole following ih => exact ⟨queue.1, queue.2.1, ih queue.2.2⟩
  | part bound => exact queue

theorem showing (all : ∀ buf ∈ rest, Shows stream buf) :
    ∀ buf ∈ passed ++ kept, Shows stream buf := by
  induction taken with
  | stop rest nextOff => exact all
  | skip empty following ih =>
    obtain ⟨head, others⟩ := List.forall_mem_cons.mp all
    exact List.forall_mem_cons.mpr ⟨head, ih others⟩
  | whole following ih =>
    obtain ⟨head, others⟩ := List.forall_mem_cons.mp all
    exact List.forall_mem_cons.mpr ⟨head, ih others⟩
  | part bound =>
    obtain ⟨head, others⟩ := List.forall_mem_cons.mp all
    exact List.forall_mem_cons.mpr ⟨head, others⟩

theorem consumed : ∀ buf ∈ passed, buf.isEmpty = true := by
  induction taken with
  | stop rest nextOff => simp
  | skip empty following ih => exact List.forall_mem_cons.mpr ⟨empty, ih⟩
  | whole following ih =>
    refine List.forall_mem_cons.mpr ⟨?_, ih⟩
    rw [RangeBuf.isEmpty_iff, RangeBuf.consume_off, RangeBuf.consume_maxOff, RangeBuf.maxOff]
  | part bound => simp

theorem unreadLen_eq :
    unreadLen (passed ++ kept) + out.length = unreadLen rest := by
  induction taken with
  | stop rest nextOff => rfl
  | skip empty following ih =>
    rw [List.cons_append, unreadLen_cons, unreadLen_cons, Nat.add_assoc, ih]
  | @whole buf rest passed kept out following ih =>
    have nothing : (buf.consume buf.len (Nat.le_refl _)).len = 0 := by
      rw [← RangeBuf.bytes_length, RangeBuf.consume_bytes, List.length_drop, RangeBuf.bytes_length, Nat.sub_self]
    rw [List.cons_append, unreadLen_cons, unreadLen_cons, nothing, List.length_append, RangeBuf.bytes_length]
    omega
  | @part buf rest size bound =>
    have left : (buf.consume size bound).len = buf.len - size := by
      rw [← RangeBuf.bytes_length, RangeBuf.consume_bytes, List.length_drop, RangeBuf.bytes_length]
    rw [List.nil_append, unreadLen_cons, unreadLen_cons, left, List.length_take, RangeBuf.bytes_length]
    omega

theorem end_le (queue : Contiguous first rest last)
    (within : nextOff ≤ last) : nextOff + out.length ≤ last := by
  induction taken generalizing first with
  | stop rest nextOff => exact within
  | skip empty following ih => exact ih queue.2.2 within
  | @whole buf rest passed kept out following ih =>
    have inside := (queue.bounds buf List.mem_cons_self).2
    have reached := ih queue.2.2 inside
    rw [List.length_append, RangeBuf.bytes_length]
    rw [RangeBuf.maxOff] at reached
    omega
  | @part buf rest size bound =>
    have inside := (queue.bounds buf List.mem_cons_self).2
    rw [RangeBuf.maxOff] at inside
    rw [List.length_take, RangeBuf.bytes_length]
    omega

theorem out_eq (all : ∀ buf ∈ rest, Shows stream buf) :
    out = (stream.drop nextOff).take out.length := by
  induction taken with
  | stop rest nextOff => simp
  | skip empty following ih => exact ih (List.forall_mem_cons.mp all).2
  | @whole buf rest passed kept out following ih =>
    obtain ⟨head, others⟩ := List.forall_mem_cons.mp all
    have tail := ih others
    rw [RangeBuf.maxOff, ← List.drop_drop] at tail
    rw [List.length_append, RangeBuf.bytes_length, List.take_add, ← head.bytes, ← tail]
  | @part buf rest size bound =>
    obtain ⟨head, others⟩ := List.forall_mem_cons.mp all
    rw [List.length_take, RangeBuf.bytes_length, Nat.min_eq_left bound, head.bytes, List.take_take,
      Nat.min_eq_left bound]

theorem unread (queue : Contiguous first rest last) (place : Nat) :
    Unread (passed ++ kept) place ↔ Unread rest place ∧ ¬ (nextOff ≤ place ∧ place < nextOff + out.length) := by
  induction taken generalizing first with
  | stop rest nextOff =>
    rw [List.length_nil, Nat.add_zero]
    exact ⟨fun waits => ⟨waits, by omega⟩, And.left⟩
  | @skip buf rest passed kept nextOff out empty following ih =>
    simp only [List.cons_append, unread_cons, not_covers_of_isEmpty empty, false_or]
    exact ih queue.2.2
  | @whole buf rest passed kept out following ih =>
    obtain ⟨start, size, behind⟩ := queue
    have later : Unread rest place → buf.maxOff ≤ place := by
      rw [RangeBuf.maxOff_eq_view]
      exact behind.le_of_unread
    have end_ : buf.maxOff = buf.off + buf.len := rfl
    rw [List.cons_append, unread_cons, unread_cons, ih behind, RangeBuf.Covers, RangeBuf.Covers,
      RangeBuf.consume_off, RangeBuf.consume_maxOff, List.length_append, RangeBuf.bytes_length]
    constructor
    · intro either
      cases either with
      | inl nothing => omega
      | inr waiting =>
        obtain ⟨waits, outside⟩ := waiting
        have := later waits
        exact ⟨.inr waits, by omega⟩
    · intro both
      obtain ⟨either, outside⟩ := both
      cases either with
      | inl here => omega
      | inr waits => exact .inr ⟨waits, by omega⟩
  | @part buf rest size bound =>
    obtain ⟨start, _, behind⟩ := queue
    have later : Unread rest place → buf.maxOff ≤ place := by
      rw [RangeBuf.maxOff_eq_view]
      exact behind.le_of_unread
    have end_ : buf.maxOff = buf.off + buf.len := rfl
    rw [List.nil_append, unread_cons, unread_cons, RangeBuf.Covers, RangeBuf.Covers,
      RangeBuf.consume_off, RangeBuf.consume_maxOff, List.length_take, RangeBuf.bytes_length, Nat.min_eq_left bound]
    constructor
    · intro either
      cases either with
      | inl here => exact ⟨.inl (by omega), by omega⟩
      | inr waits =>
        have := later waits
        exact ⟨.inr waits, by omega⟩
    · intro both
      obtain ⟨either, outside⟩ := both
      cases either with
      | inl here => exact .inl (by omega)
      | inr waits => exact .inr waits

end

end Taken

/-- The send buffer with the cursor between `front` and `rest`. -/
def cursorAt (send : SendBuf) (front rest : List RangeBuf) (len : Nat) : SendBuf :=
  { send with data := front ++ rest, pos := front.length, len := len }

theorem cursorAt_self (split : send.data = front ++ rest) (cursor : send.pos = front.length) :
    send.cursorAt front rest send.len = send := by
  rw [cursorAt, ← split, ← cursor]

/-- The first offset that was not read in a queue, or the end of the stream. -/
def frontOf (off : Nat) (rest : List RangeBuf) : Nat :=
  match rest.find? fun buf => !buf.isEmpty with
  | some buf => buf.off
  | none => off

theorem frontOf_skip {buf : RangeBuf} {off : Nat} (empty : buf.isEmpty = true) :
    frontOf off (buf :: rest) = frontOf off rest := by
  rw [frontOf, frontOf, List.find?_cons_of_neg (by simp [empty])]

theorem frontOf_here {buf : RangeBuf} {off : Nat} (waits : ¬ buf.isEmpty = true) :
    frontOf off (buf :: rest) = buf.off := by
  rw [frontOf, List.find?_cons_of_pos (by simpa using waits)]

theorem offFront_cursorAt (send : SendBuf) (front rest : List RangeBuf) (len : Nat) :
    (send.cursorAt front rest len).offFront = frontOf send.off rest := by
  rw [offFront, cursorAt, List.drop_left]
  rfl

/-- The reasons for which the loop stops without taking anything. -/
def Blocked (send : SendBuf) (rest : List RangeBuf) (outLen nextOff : Nat) : Prop :=
  outLen = 0 ∨ send.off ≤ frontOf send.off rest ∨ frontOf send.off rest ≠ nextOff ∨ send.maxData ≤ frontOf send.off rest

section Loop

variable {buf : RangeBuf} {fuel len : Nat} {before : List UInt8}

theorem emitLoop_blocked (blocked : Blocked send rest outLen nextOff) :
    emitLoop (fuel + 1) (send.cursorAt front rest len) outLen nextOff before =
      some (send.cursorAt front rest len, nextOff, before) := by
  rw [emitLoop, offFront_cursorAt]
  by_cases full : outLen = 0
  · rw [if_pos full]
  · rw [if_neg full, if_pos (.inr (blocked.resolve_left full))]

theorem blocked_nil (send : SendBuf) (outLen nextOff : Nat) : Blocked send [] outLen nextOff :=
  .inr (.inl (Nat.le_refl _))

section

variable (ahead : ¬ Blocked send (buf :: rest) outLen nextOff)

include ahead

theorem emitLoop_ahead :
    emitLoop (fuel + 1) (send.cursorAt front (buf :: rest) len) outLen nextOff before = if buf.isEmpty then
        emitLoop fuel (send.cursorAt (front ++ [buf]) rest len) outLen nextOff before
      else
        (subChecked len (min buf.len outLen)).bind fun left =>
          if min buf.len outLen < buf.len then
            some (send.cursorAt front
                (buf.consume (min buf.len outLen) (Nat.min_le_left _ _) :: rest) left,
              buf.off + min buf.len outLen, before ++ buf.bytes.take (min buf.len outLen))
          else
            emitLoop fuel
              (send.cursorAt
                (front ++ [buf.consume (min buf.len outLen) (Nat.min_le_left _ _)]) rest left)
              (outLen - min buf.len outLen) (buf.off + min buf.len outLen)
              (before ++ buf.bytes.take (min buf.len outLen)) := by
  have room : ¬ outLen = 0 := fun full => ahead (.inl full)
  have open_ : ¬ ((send.cursorAt front (buf :: rest) len).data.isEmpty = true ∨
      frontOf send.off (buf :: rest) ≥ (send.cursorAt front (buf :: rest) len).off ∨
      frontOf send.off (buf :: rest) ≠ nextOff ∨
      frontOf send.off (buf :: rest) ≥ (send.cursorAt front (buf :: rest) len).maxData) := by
    intro blocked
    cases blocked with
    | inl empty => simp [cursorAt] at empty
    | inr reason => exact ahead (.inr reason)
  have current : (front ++ buf :: rest)[front.length]? = some buf := by simp
  have replaced : ∀ other, (front ++ buf :: rest).set front.length other = front ++ other :: rest := by
    intro other
    simp
  rw [emitLoop, if_neg room, offFront_cursorAt, if_neg open_]
  simp only [cursorAt, current, replaced, List.append_assoc, List.singleton_append,
    List.length_append, List.length_singleton]
  cases subChecked len (min buf.len outLen) <;> rfl

theorem emitLoop_part
    (waits : ¬ buf.isEmpty = true) (short : outLen < buf.len) (waiting : buf.len ≤ len) :
    emitLoop (fuel + 1) (send.cursorAt front (buf :: rest) len) outLen nextOff before =
      some (send.cursorAt front (buf.consume outLen (Nat.le_of_lt short) :: rest) (len - outLen),
        buf.off + outLen, before ++ buf.bytes.take outLen) := by
  have size : min buf.len outLen = outLen := Nat.min_eq_right (Nat.le_of_lt short)
  rw [emitLoop_ahead ahead, if_neg waits]
  simp only [size, subChecked_of_le (Nat.le_trans (Nat.le_of_lt short) waiting), Option.bind_some, if_pos short]

theorem emitLoop_whole
    (waits : ¬ buf.isEmpty = true) (fits : buf.len ≤ outLen) (waiting : buf.len ≤ len) :
    emitLoop (fuel + 1) (send.cursorAt front (buf :: rest) len) outLen nextOff before = emitLoop fuel
        (send.cursorAt (front ++ [buf.consume buf.len (Nat.le_refl _)]) rest (len - buf.len))
        (outLen - buf.len) buf.maxOff (before ++ buf.bytes) := by
  have size : min buf.len outLen = buf.len := Nat.min_eq_left fits
  have all : buf.bytes.take buf.len = buf.bytes := by
    rw [← RangeBuf.bytes_length, List.take_length]
  rw [emitLoop_ahead ahead, if_neg waits]
  simp only [size, subChecked_of_le waiting, Option.bind_some, if_neg (Nat.lt_irrefl buf.len), all]
  rfl

end

theorem emitLoop_exists (send : SendBuf) (front rest : List RangeBuf) (len outLen nextOff : Nat)
    (before : List UInt8) (enough : rest.length < fuel) (waiting : unreadLen rest ≤ len) :
    ∃ out passed kept, emitLoop fuel (send.cursorAt front rest len) outLen nextOff before =
        some (send.cursorAt (front ++ passed) kept (len - out.length), nextOff + out.length, before ++ out) ∧
      Taken rest nextOff out passed kept ∧ out.length ≤ outLen ∧ (out = [] → Blocked send rest outLen nextOff) := by
  induction fuel generalizing front rest len outLen nextOff before with
  | zero => exact absurd enough (Nat.not_lt_zero _)
  | succ fuel ih =>
    by_cases blocked : Blocked send rest outLen nextOff
    · refine ⟨[], [], rest, ?_, .stop rest nextOff, Nat.zero_le _, fun _ => blocked⟩
      rw [emitLoop_blocked blocked]
      simp
    cases rest with
    | nil => exact absurd (blocked_nil send outLen nextOff) blocked
    | cons buf rest =>
      rw [unreadLen_cons] at waiting
      have enoughRest : rest.length < fuel := Nat.lt_of_succ_lt_succ enough
      by_cases empty : buf.isEmpty = true
      · obtain ⟨out, passed, kept, looped, taken, fits, progress⟩ :=
          ih (front ++ [buf]) rest len outLen nextOff before enoughRest (by omega)
        rw [emitLoop_ahead blocked, if_pos empty, looped]
        refine ⟨out, buf :: passed, kept, by simp, .skip empty taken, fits, ?_⟩
        rw [Blocked, frontOf_skip empty]
        exact progress
      · have here : buf.off = nextOff := by
          simp only [Blocked, frontOf_here empty, not_or, Decidable.not_not] at blocked
          exact blocked.2.2.1
        subst here
        have nonempty : 0 < buf.len := by
          rw [RangeBuf.isEmpty_iff_len] at empty
          omega
        have bytes := buf.bytes_length
        by_cases short : outLen < buf.len
        · have copied : (buf.bytes.take outLen).length = outLen := by
            rw [List.length_take]
            omega
          rw [emitLoop_part blocked empty short (by omega)]
          refine ⟨buf.bytes.take outLen, [], _, ?_, .part (Nat.le_of_lt short), Nat.le_of_eq copied, ?_⟩
          · rw [copied, List.append_nil]
          · intro nothing
            rw [nothing, List.length_nil] at copied
            exact .inl copied.symm
        · obtain ⟨out, passed, kept, looped, taken, fits, _⟩ :=
            ih (front ++ [buf.consume buf.len (Nat.le_refl _)]) rest (len - buf.len)
              (outLen - buf.len) buf.maxOff (before ++ buf.bytes) enoughRest (by omega)
          rw [emitLoop_whole blocked empty (Nat.not_lt.mp short) (by omega)]
          refine ⟨buf.bytes ++ out, _, kept, Eq.trans looped ?_, .whole taken, ?_, ?_⟩
          · simp [RangeBuf.maxOff, Nat.sub_sub, Nat.add_assoc]
          · rw [List.length_append]
            omega
          · intro nothing
            rw [(List.append_eq_nil_iff.mp nothing).1, List.length_nil] at bytes
            omega

end Loop

theorem frontOf_le {off : Nat} (queue : Contiguous first rest off) : frontOf off rest ≤ off := by
  rw [frontOf]
  split
  · rename_i buf found
    exact Nat.le_trans buf.off_le_maxOff (queue.bounds buf (List.mem_of_find?_eq_some found)).2
  · exact Nat.le_refl _

/-- What `emit` writes and what it leaves. -/
structure Emitted (stream : List UInt8) (send : SendBuf) (outLen : Nat) (out : List UInt8) (fin : Bool)
    (next : SendBuf) : Prop where
  out_eq : out = (stream.drop send.offFront).take out.length
  length_le : out.length ≤ outLen
  end_le : send.offFront + out.length ≤ send.off
  fin_iff : fin = true ↔ send.finOff = some (send.offFront + out.length)
  off : next.off = send.off
  maxData : next.maxData = send.maxData
  finOff : next.finOff = send.finOff
  acked : next.acked = send.acked
  unread : ∀ place, Unread next.data place ↔ Unread send.data place ∧
    ¬ (send.offFront ≤ place ∧ place < send.offFront + out.length)
  unreadLen_eq : unreadLen next.data + out.length = unreadLen send.data
  /-- Nothing is written only into an empty output or when nothing waits. -/
  progress : out = [] → outLen = 0 ∨ send.offFront = send.off

/-- The queue with the cursor between `front`, which was read, and `rest`. -/
structure Split (stream : List UInt8) (send : SendBuf) (front rest : List RangeBuf) : Prop where
  data : send.data = front ++ rest
  pos : send.pos = front.length
  consumed : ∀ buf ∈ front, buf.isEmpty = true
  showing : ∀ buf ∈ front ++ rest, Shows stream buf
  contiguous : ∃ base middle, base ≤ send.ackOff ∧ Contiguous base front middle ∧ Contiguous middle rest send.off

theorem Valid.split_exists (valid : Valid stream send) :
    ∃ front rest, Split stream send front rest ∧ rest.length = send.data.length - send.pos := by
  obtain ⟨base, below, queue⟩ := valid.contiguous
  have whole : send.data = send.data.take send.pos ++ send.data.drop send.pos := (List.take_append_drop _ _).symm
  refine ⟨send.data.take send.pos, send.data.drop send.pos, ⟨whole, ?_, valid.consumed, ?_, ?_⟩, List.length_drop⟩
  · rw [List.length_take, Nat.min_eq_left valid.pos_le]
  · rw [← whole]
    exact valid.showing
  · rw [whole] at queue
    obtain ⟨middle, frontQueue, restQueue⟩ := contiguous_append.mp queue
    exact ⟨base, middle, below, frontQueue, restQueue⟩

namespace Split

section

variable (split : Split stream send front rest)

include split

theorem offFront_eq : send.offFront = frontOf send.off rest := by
  conv_lhs => rw [← cursorAt_self split.data split.pos]
  exact offFront_cursorAt send front rest send.len

theorem unread_front (place : Nat) :
    Unread (front ++ kept) place ↔ Unread kept place := by
  rw [unread_append, or_iff_right (not_unread_of_isEmpty split.consumed)]

theorem unreadLen_front : unreadLen (front ++ kept) = unreadLen kept := by
  rw [unreadLen_append, unreadLen_of_isEmpty split.consumed, Nat.zero_add]

end

/-- The send buffer after the loop has taken `out`. -/
def taken (send : SendBuf) (front passed kept : List RangeBuf) (out : List UInt8) : SendBuf :=
  { send.cursorAt (front ++ passed) kept (send.len - out.length) with
    emitOff := max send.emitOff (send.offFront + out.length) }

variable {startOff : Nat}

theorem taken_valid (split : Split stream send front rest) (valid : Valid stream send)
    (took : Taken rest startOff out passed kept) : Valid stream (taken send front passed kept out) where
  contiguous := by
    obtain ⟨base, middle, below, frontQueue, restQueue⟩ := split.contiguous
    refine ⟨base, below, ?_⟩
    show Contiguous base ((front ++ passed) ++ kept) send.off
    rw [List.append_assoc]
    exact contiguous_append.mpr ⟨middle, frontQueue, took.contiguous restQueue⟩
  showing := by
    intro buf member
    rw [taken, cursorAt, List.append_assoc] at member
    cases List.mem_append.mp member with
    | inl old => exact split.showing buf (List.mem_append_left _ old)
    | inr new =>
      exact took.showing (fun other inside => split.showing other (List.mem_append_right _ inside))
        buf new
  off_eq := valid.off_eq
  pos_le := by simp [taken, cursorAt]
  consumed := by
    intro buf member
    simp only [taken, cursorAt, List.take_left, List.mem_append] at member
    cases member with
    | inl old => exact split.consumed buf old
    | inr new => exact took.consumed buf new
  off_le := valid.off_le
  small := valid.small
  unreadLen_le := by
    have left := took.unreadLen_eq
    have total := valid.unreadLen_le
    rw [split.data, split.unreadLen_front] at total
    show unreadLen ((front ++ passed) ++ kept) ≤ send.len - out.length
    rw [List.append_assoc, split.unreadLen_front]
    omega
  acked := valid.acked
  running := valid.running
  finOff_eq := valid.finOff_eq

theorem taken_emitted (split : Split stream send front rest) (valid : Valid stream send)
    (took : Taken rest send.offFront out passed kept) (fits : out.length ≤ outLen)
    (blocked : out = [] → Blocked send rest outLen send.offFront) :
    Emitted stream send outLen out (send.finOff == some (send.offFront + out.length))
      (taken send front passed kept out) := by
  obtain ⟨base, middle, below, frontQueue, restQueue⟩ := split.contiguous
  have within := frontOf_le restQueue
  have start := split.offFront_eq
  exact {
    out_eq := took.out_eq fun buf member => split.showing buf (List.mem_append_right _ member)
    length_le := fits
    end_le := took.end_le restQueue (start ▸ within)
    fin_iff := by simp
    off := rfl
    maxData := rfl
    finOff := rfl
    acked := rfl
    unread := by
      intro place
      rw [split.data, split.unread_front, ← took.unread restQueue place]
      show Unread ((front ++ passed) ++ kept) place ↔ _
      rw [List.append_assoc, split.unread_front]
    unreadLen_eq := by
      rw [split.data, split.unreadLen_front, ← took.unreadLen_eq]
      show unreadLen ((front ++ passed) ++ kept) + _ = _
      rw [List.append_assoc, split.unreadLen_front]
    progress := by
      intro nothing
      have limit := valid.off_le
      rcases blocked nothing with full | reached | elsewhere | limited
      · exact .inl full
      · exact .inr (by omega)
      · exact absurd start.symm elsewhere
      · exact .inr (by omega) }

end Split

theorem emit_spec (valid : Valid stream send) (outLen : Nat) :
    ∃ next out fin, send.emit outLen = some (next, out, fin) ∧ Valid stream next ∧
      Emitted stream send outLen out fin next := by
  obtain ⟨front, rest, split, length⟩ := valid.split_exists
  have waiting : unreadLen rest ≤ send.len := by
    have total := valid.unreadLen_le
    rwa [split.data, split.unreadLen_front] at total
  obtain ⟨out, passed, kept, looped, took, fits, blocked⟩ :=
    emitLoop_exists send front rest send.len outLen send.offFront [] (Nat.lt_succ_self _) waiting
  refine ⟨Split.taken send front passed kept out, out, _, ?_, split.taken_valid valid took,
    split.taken_emitted valid took fits blocked⟩
  rw [cursorAt_self split.data split.pos, length] at looped
  rw [emit, looped, List.nil_append]
  rfl

variable {next : SendBuf} {off maxData reached fuel : Nat} {result : List UInt8} {fin : Bool}

/-- The bytes that follow one another from `nextOff` on, up to a gap or to what the peer allows. -/
def waitingFrom (off maxData : Nat) : Nat → List RangeBuf → Nat
  | _, [] => 0
  | nextOff, buf :: rest =>
    if buf.isEmpty then waitingFrom off maxData nextOff rest
    else if off ≤ buf.off ∨ buf.off ≠ nextOff ∨ maxData ≤ buf.off then 0
    else buf.len + waitingFrom off maxData (buf.off + buf.len) rest

/-- How much one frame can carry of what is to be sent next. -/
def waiting (send : SendBuf) : Nat := waitingFrom send.off send.maxData send.offFront (send.data.drop send.pos)

theorem waitingFrom_blocked (queue : List RangeBuf)
    (blocked : off ≤ frontOf off queue ∨ frontOf off queue ≠ nextOff ∨ maxData ≤ frontOf off queue) :
    waitingFrom off maxData nextOff queue = 0 := by
  induction queue with
  | nil => rfl
  | cons buf rest ih =>
    rw [waitingFrom]
    by_cases empty : buf.isEmpty = true
    · rw [if_pos empty]
      exact ih (frontOf_skip empty ▸ blocked)
    · rw [if_neg empty, if_pos (frontOf_here empty ▸ blocked)]

theorem emitLoop_length (emitted : emitLoop fuel send outLen nextOff out = some (next, reached, result)) :
    result.length = out.length + min outLen (waitingFrom send.off send.maxData nextOff (send.data.drop send.pos)) := by
  induction fuel generalizing send outLen nextOff out with
  | zero => cases emitted
  | succ fuel ih =>
    rw [emitLoop] at emitted
    by_cases full : outLen = 0
    · rw [if_pos full] at emitted
      cases emitted
      simp [full]
    rw [if_neg full] at emitted
    by_cases blocked : send.data.isEmpty ∨ send.offFront ≥ send.off ∨ send.offFront ≠ nextOff ∨
        send.offFront ≥ send.maxData
    · rw [if_pos blocked] at emitted
      cases emitted
      rcases blocked with empty | blocked
      · simp [List.isEmpty_iff.mp empty, waitingFrom]
      · rw [waitingFrom_blocked _ blocked, Nat.min_zero, Nat.add_zero]
    rw [if_neg blocked] at emitted
    cases found : send.data[send.pos]? with
    | none =>
      rw [found] at emitted
      cases emitted
      rw [List.drop_eq_nil_of_le (List.getElem?_eq_none_iff.mp found)]
      simp [waitingFrom]
    | some buf =>
      obtain ⟨within, is⟩ := List.getElem?_eq_some_iff.mp found
      have split : send.data.drop send.pos = buf :: send.data.drop (send.pos + 1) := by
        rw [List.drop_eq_getElem_cons within, is]
      rw [found] at emitted
      dsimp only at emitted
      rw [split, waitingFrom]
      by_cases empty : buf.isEmpty = true
      · rw [if_pos empty] at emitted ⊢
        exact ih emitted
      · rw [if_neg empty] at emitted ⊢
        have front : send.offFront = buf.off := by
          rw [offFront, split]
          simp [empty]
        have ahead : ¬ (send.off ≤ buf.off ∨ buf.off ≠ nextOff ∨ send.maxData ≤ buf.off) :=
          fun other => blocked (.inr (front.symm ▸ other))
        rw [if_neg ahead]
        cases counted : subChecked send.len (min buf.len outLen) with
        | none =>
          rw [counted] at emitted
          cases emitted
        | some len =>
          rw [counted] at emitted
          dsimp only at emitted
          have size : (buf.bytes.take (min buf.len outLen)).length = min buf.len outLen := by
            rw [List.length_take, RangeBuf.bytes_length, Nat.min_eq_left (Nat.min_le_left _ _)]
          by_cases short : min buf.len outLen < buf.len
          · rw [if_pos short] at emitted
            cases emitted
            rw [List.length_append, size]
            omega
          · rw [if_neg short] at emitted
            have rest := ih emitted
            have whole : min buf.len outLen = buf.len := by omega
            dsimp only at rest
            rw [List.drop_set_of_lt (Nat.lt_add_one send.pos), List.length_append, size, whole] at rest
            omega

theorem emit_length (emitted : send.emit outLen = some (next, out, fin)) : out.length = min outLen send.waiting := by
  obtain ⟨⟨moved, reached, sent⟩, looped, emitted⟩ := Option.bind_eq_some_iff.mp emitted
  cases emitted
  rw [emitLoop_length looped, List.length_nil, Nat.zero_add, waiting]

end Quiche.SendBuf
