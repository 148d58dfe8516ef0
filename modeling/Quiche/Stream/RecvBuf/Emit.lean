import Quiche.Stream.RecvBuf.Write

namespace Quiche.RecvBuf

open Data

variable {recv : RecvBuf}

theorem ready_of_first {key : Nat} {buf : RangeBuf} {rest : List (Nat × RangeBuf)}
    (first : recv.data.entries = (key, buf) :: rest) : recv.ready = (buf.off == recv.off) := by
  simp only [ready, OrderedMap.first?, first, List.head?_cons]

theorem Valid.missing_of_not_ready (valid : recv.Valid) (idle : recv.ready = false) (byte : UInt8) :
    ¬ recv.Stored recv.off byte := by
  intro holder
  obtain ⟨entry, member, found⟩ := holder
  have covers := RangeBuf.covers_of_byteAt found
  cases entries : recv.data.entries with
  | nil => simp [entries] at member
  | cons head rest =>
    rw [ready_of_first entries, beq_eq_false_iff_ne] at idle
    have headUnread := valid.unread head (by simp [entries])
    have headOrder := head.2.off_le_maxOff
    rw [entries] at member
    cases List.mem_cons.mp member with
    | inl same =>
      subst same
      exact idle (Nat.le_antisymm covers.1 headUnread)
    | inr inside =>
      have later := (List.pairwise_cons.mp (entries ▸ valid.chunks_apart)).1 entry inside
      have := covers.1
      omega

section First

variable {key : Nat} {buf : RangeBuf} {rest : List (Nat × RangeBuf)}

section

variable (valid : recv.Valid) (first : recv.data.entries = (key, buf) :: rest)

include valid first

theorem Valid.behind_first {entry : Nat × RangeBuf} (member : entry ∈ rest) : buf.maxOff ≤ entry.2.off :=
  (List.pairwise_cons.mp (first ▸ valid.chunks_apart)).1 entry member

theorem Valid.first_facts : key = buf.maxOff ∧ recv.off ≤ buf.off ∧ buf.maxOff ≤ recv.len :=
  ⟨valid.keyed (key, buf) (by simp [first]), valid.unread (key, buf) (by simp [first]),
    valid.received (key, buf) (by simp [first])⟩

theorem Valid.popFirst : { recv with data := recv.data.popFirst, off := buf.maxOff }.Valid := by
  have kept : ∀ entry ∈ recv.data.popFirst.entries, entry ∈ rest := by
    simp [OrderedMap.popFirst, first]
  have stored : ∀ entry ∈ recv.data.popFirst.entries, entry ∈ recv.data.entries := by
    intro entry member
    rw [first]
    exact List.mem_cons_of_mem _ (kept entry member)
  exact {
    keyed := fun entry member => valid.keyed entry (stored entry member)
    apart := fun one inOne two inTwo before =>
      valid.apart one (stored one inOne) two (stored two inTwo) before
    unread := fun entry member => valid.behind_first first (kept entry member)
    received := fun entry member => valid.received entry (stored entry member)
    empty_fin := fun entry member empty => valid.empty_fin entry (stored entry member) empty
    off_le_len := (valid.first_facts first).2.2
    len_le_fin := valid.len_le_fin
    len_le_maxData := valid.len_le_maxData
    maxData_lt := valid.maxData_lt }

end

theorem popFirst_stored (first : recv.data.entries = (key, buf) :: rest)
    {index : Nat} (lower : buf.maxOff ≤ index) (byte : UInt8) :
    { recv with data := recv.data.popFirst, off := buf.maxOff }.Stored index byte ↔ recv.Stored index byte := by
  simp only [Stored, OrderedMap.popFirst, first, List.tail_cons, List.mem_cons]
  constructor
  · intro holder
    obtain ⟨entry, member, found⟩ := holder
    exact ⟨entry, .inr member, found⟩
  · intro holder
    obtain ⟨entry, either, found⟩ := holder
    cases either with
    | inl same =>
      subst same
      have := (RangeBuf.covers_of_byteAt found).2
      simp only at this
      omega
    | inr member => exact ⟨entry, member, found⟩

theorem Valid.consumeFirst (valid : recv.Valid) (first : recv.data.entries = (key, buf) :: rest)
    (readyNow : buf.off = recv.off) {count : Nat} (bound : count ≤ buf.len) (partly : count < buf.len) :
    { recv with data := recv.data.setFirst (buf.consume count bound), off := recv.off + count }.Valid := by
  have members : ∀ entry, entry ∈ (recv.data.setFirst (buf.consume count bound)).entries ↔
      entry = (key, buf.consume count bound) ∨ entry ∈ rest := by
    simp [OrderedMap.setFirst, first]
  obtain ⟨keyMax, _, received⟩ := valid.first_facts first
  have stored : ∀ entry ∈ rest, entry ∈ recv.data.entries := by
    intro entry member
    rw [first]
    exact List.mem_cons_of_mem _ member
  have restAbove : ∀ entry ∈ rest, key < entry.1 := (List.pairwise_cons.mp (first ▸ recv.data.ordered)).1
  have inside : recv.off + count < buf.maxOff := by
    simp only [RangeBuf.maxOff]
    omega
  constructor
  · intro entry member
    cases (members entry).mp member with
    | inl same =>
      subst same
      simpa using keyMax
    | inr member => exact valid.keyed entry (stored entry member)
  · intro one inOne two inTwo before
    rcases (members one).mp inOne with rfl | inOne <;>
      rcases (members two).mp inTwo with rfl | inTwo
    · exact absurd before (Nat.lt_irrefl _)
    · simpa using valid.behind_first first inTwo
    · exact absurd before (Nat.lt_asymm (restAbove one inOne))
    · exact valid.apart one (stored one inOne) two (stored two inTwo) before
  · intro entry member
    cases (members entry).mp member with
    | inl same =>
      subst same
      simp [readyNow]
    | inr member =>
      have := valid.behind_first first member
      exact Nat.le_trans (Nat.le_of_lt inside) this
  · intro entry member
    cases (members entry).mp member with
    | inl same =>
      subst same
      simpa using received
    | inr member => exact valid.received entry (stored entry member)
  · intro entry member empty
    cases (members entry).mp member with
    | inl same =>
      subst same
      simp only [RangeBuf.consume_off, RangeBuf.consume_maxOff] at empty
      omega
    | inr member => exact valid.empty_fin entry (stored entry member) empty
  · exact Nat.le_trans (Nat.le_of_lt inside) received
  · exact valid.len_le_fin
  · exact valid.len_le_maxData
  · exact valid.maxData_lt

theorem consumeFirst_stored (first : recv.data.entries = (key, buf) :: rest)
    {count : Nat} (bound : count ≤ buf.len) {index : Nat} (lower : buf.off + count ≤ index) (byte : UInt8) :
    { recv with data := recv.data.setFirst (buf.consume count bound),
                off := recv.off + count }.Stored index byte ↔ recv.Stored index byte := by
  have same : (buf.consume count bound).byteAt index = buf.byteAt index := by
    rw [RangeBuf.byteAt_eq_view (by simpa using lower), RangeBuf.byteAt_eq_view (by omega)]
    simp
  simp only [Stored, OrderedMap.setFirst, first, List.mem_cons]
  constructor
  · intro holder
    obtain ⟨entry, either, found⟩ := holder
    cases either with
    | inl consumed =>
      subst consumed
      exact ⟨_, .inl rfl, same ▸ found⟩
    | inr member => exact ⟨entry, .inr member, found⟩
  · intro holder
    obtain ⟨entry, either, found⟩ := holder
    cases either with
    | inl whole =>
      subst whole
      exact ⟨_, .inl rfl, same.trans found⟩
    | inr member => exact ⟨entry, .inr member, found⟩

end First

structure Copied (recv : RecvBuf) (cap : Nat) (out : List UInt8) (next : RecvBuf) : Prop where
  valid : next.Valid
  off : next.off = recv.off + out.length
  finOff : next.finOff = recv.finOff
  error : next.error = recv.error
  drain : next.drain = recv.drain
  bounded : out.length ≤ cap
  bytes : ∀ place byte, out[place]? = some byte → recv.Stored (recv.off + place) byte
  stored : ∀ index, next.off ≤ index → ∀ byte, next.Stored index byte ↔ recv.Stored index byte
  exhausted : out.length = cap ∨ next.ready = false
  ends : ∀ final, recv.finOff = some final → recv.EndsAt final → next.EndsAt final ∨ next.off = final

/-- What copying `out` out of the buffer does. -/
structure Delivered (recv : RecvBuf) (cap : Nat) (out : List UInt8) (next : RecvBuf) : Prop
    extends Copied recv cap out next where
  flowControl : next.flowControl = recv.flowControl

theorem Delivered.stop (valid : recv.Valid) {cap : Nat} (stop : ¬ (0 < cap ∧ recv.ready)) :
    Delivered recv cap [] recv where
  valid := valid
  off := rfl
  finOff := rfl
  error := rfl
  drain := rfl
  flowControl := rfl
  bounded := Nat.zero_le _
  bytes := by simp
  stored _ _ _ := Iff.rfl
  exhausted := by
    by_cases full : cap = 0
    · exact .inl full.symm
    · exact .inr (by simpa [Nat.pos_of_ne_zero full] using stop)
  ends _ _ ends := .inl ends

section Chunk

variable {key cap : Nat} {buf : RangeBuf} {rest : List (Nat × RangeBuf)}

theorem first_bytes_stored (first : recv.data.entries = (key, buf) :: rest)
    (readyNow : buf.off = recv.off) {place : Nat} {byte : UInt8}
    (found : buf.bytes[place]? = some byte) : recv.Stored (recv.off + place) byte := by
  refine ⟨(key, buf), by simp [first], ?_⟩
  rw [RangeBuf.byteAt, readyNow, if_pos (Nat.le_add_right _ _), Nat.add_sub_cancel_left]
  exact found

theorem Delivered.partly (valid : recv.Valid) (first : recv.data.entries = (key, buf) :: rest)
    (readyNow : buf.off = recv.off) (short : cap < buf.len) (bound : cap ≤ buf.len) :
    Delivered recv cap (buf.bytes.take cap)
      { recv with data := recv.data.setFirst (buf.consume cap bound), off := recv.off + cap } where
  valid := valid.consumeFirst first readyNow bound short
  off := by simp [Nat.min_eq_left bound]
  finOff := rfl
  error := rfl
  drain := rfl
  flowControl := rfl
  bounded := List.length_take_le _ _
  bytes place byte found := by
    rw [List.getElem?_take] at found
    split at found
    · exact first_bytes_stored first readyNow found
    · contradiction
  stored index lower byte := consumeFirst_stored first bound (by simpa [readyNow] using lower) byte
  exhausted := .inl (by simp [Nat.min_eq_left bound])
  ends := by
    intro final known holder
    obtain ⟨entry, member, ends⟩ := holder
    refine .inl ?_
    rw [first] at member
    cases List.mem_cons.mp member with
    | inl same =>
      subst same
      exact ⟨(key, buf.consume cap bound), by simp [OrderedMap.setFirst, first], by simpa using ends⟩
    | inr member => exact ⟨entry, by simp [OrderedMap.setFirst, first, member], ends⟩

theorem Delivered.whole {taken : List UInt8} {next : RecvBuf}
    (first : recv.data.entries = (key, buf) :: rest) (readyNow : buf.off = recv.off) (fits : buf.len ≤ cap)
    (delivered : Delivered { recv with data := recv.data.popFirst, off := buf.maxOff }
      (cap - buf.len) taken next) : Delivered recv cap (buf.bytes ++ taken) next := by
  have nextOff : next.off = buf.maxOff + taken.length := delivered.off
  have bufMax : buf.maxOff = recv.off + buf.len := by rw [← readyNow]; rfl
  refine ⟨⟨delivered.valid, ?_, delivered.finOff, delivered.error, delivered.drain, ?_, ?_, ?_, ?_, ?_⟩,
    delivered.flowControl⟩
  · rw [nextOff, List.length_append, buf.bytes_length]
    omega
  · have := delivered.bounded
    rw [List.length_append, buf.bytes_length]
    omega
  · intro place byte found
    by_cases early : place < buf.bytes.length
    · rw [List.getElem?_append_left early] at found
      exact first_bytes_stored first readyNow found
    · rw [List.getElem?_append_right (Nat.not_lt.mp early)] at found
      have moved := delivered.bytes _ byte found
      rw [buf.bytes_length] at early moved
      have same : buf.maxOff + (place - buf.len) = recv.off + place := by omega
      rw [same] at moved
      exact (popFirst_stored first (by omega) byte).mp moved
  · intro index lower byte
    rw [delivered.stored index lower byte]
    exact popFirst_stored first (by omega) byte
  · cases delivered.exhausted with
    | inl full =>
      refine .inl ?_
      rw [List.length_append, buf.bytes_length]
      omega
    | inr idle => exact .inr idle
  · intro final known holder
    obtain ⟨entry, member, ends⟩ := holder
    rw [first] at member
    cases List.mem_cons.mp member with
    | inl same =>
      subst same
      -- Nothing lies behind the final offset.
      have within := delivered.valid.len_le_fin final (delivered.finOff.trans known)
      have order := delivered.valid.off_le_len
      change buf.maxOff = final at ends
      exact .inr (by omega)
    | inr member =>
      exact delivered.ends final known ⟨entry, by simp [OrderedMap.popFirst, first, member], ends⟩

end Chunk

theorem emitLoop_spec {fuel : Nat} (cap : Nat) (valid : recv.Valid) (enough : recv.data.size < fuel)
    (out : List UInt8) :
    ∃ next taken, emitLoop fuel recv cap out = some (next, out ++ taken) ∧ Delivered recv cap taken next := by
  induction fuel generalizing recv cap out with
  | zero => omega
  | succ fuel ih =>
    by_cases continues : 0 < cap ∧ recv.ready
    · cases first : recv.data.entries with
      | nil => simp [ready, OrderedMap.first?, first] at continues
      | cons head rest =>
        obtain ⟨key, buf⟩ := head
        have readyNow : buf.off = recv.off := by
          simpa [ready_of_first first] using continues.2
        have received := (valid.first_facts first).2.2
        have limit := valid.len_le_maxData
        have small := valid.maxData_lt
        have bufMax : buf.maxOff = recv.off + buf.len := by rw [← readyNow]; rfl
        by_cases short : cap < buf.len
        · have capped : min buf.len cap = cap := by omega
          have added : addU64 recv.off cap = some (recv.off + cap) := addU64_of_lt (by omega)
          refine ⟨_, buf.bytes.take cap, ?_, .partly valid first readyNow short (Nat.le_of_lt short)⟩
          simp only [emitLoop, if_pos continues, OrderedMap.first?, first, List.head?_cons,
            capped, added, Option.bind_eq_bind, Option.bind_some, if_pos short]
        · have all : min buf.len cap = buf.len := by omega
          have added : addU64 recv.off buf.len = some buf.maxOff := by
            rw [bufMax]
            exact addU64_of_lt (by omega)
          have shrinks : recv.data.popFirst.size < fuel := by
            simp only [OrderedMap.size, OrderedMap.popFirst, first, List.tail_cons, List.length_cons] at enough ⊢
            omega
          obtain ⟨next, taken, completed, delivered⟩ := ih (cap - buf.len)
            (valid.popFirst first) shrinks (out ++ buf.bytes)
          refine ⟨next, buf.bytes ++ taken, ?_, .whole first readyNow (Nat.not_lt.mp short) delivered⟩
          have copied : buf.bytes.take buf.len = buf.bytes := List.take_of_length_le (Nat.le_of_eq buf.bytes_length)
          simp only [emitLoop, if_pos continues, OrderedMap.first?, first, List.head?_cons, all,
            added, Option.bind_eq_bind, Option.bind_some, Nat.lt_irrefl, if_false, copied,
            completed, List.append_assoc]
    · exact ⟨recv, [], by simp only [emitLoop, if_neg continues, List.append_nil], .stop valid continues⟩

/-- What a call of `emit` does on a stream that was not reset. -/
structure Emitted (recv : RecvBuf) (cap : Nat) (out : List UInt8) (next : RecvBuf) : Prop
    extends Copied recv cap out next where
  consumed : next.flowControl.consumed = recv.flowControl.consumed + out.length

theorem emit_idle (idle : recv.ready = false) (cap : Nat) : recv.emit cap = some (recv, .error .done) := by
  simp [emit, idle]

theorem emit_spec (valid : recv.Valid) (alive : recv.error = none)
    (counted : recv.flowControl.consumed ≤ recv.off) (readyNow : recv.ready = true) (cap : Nat) :
    ∃ next out, recv.emit cap = some (next, .ok (out, next.isFin)) ∧ Emitted recv cap out next := by
  obtain ⟨middle, out, completed, delivered⟩ := emitLoop_spec cap valid
    (Nat.lt_succ_self recv.data.size) []
  have limit := delivered.valid.off_le_len
  have := delivered.valid.len_le_maxData
  have := delivered.valid.maxData_lt
  have offset := delivered.off
  have added : middle.flowControl.addConsumed out.length =
      some { middle.flowControl with consumed := middle.flowControl.consumed + out.length } :=
    FlowControl.addConsumed_of_lt (by rw [delivered.flowControl]; omega)
  rw [List.nil_append] at completed
  refine ⟨{ middle with
      flowControl := { middle.flowControl with consumed := middle.flowControl.consumed + out.length } },
    out, ?_, ?_⟩
  · simp only [emit, readyNow, not_true_eq_false, if_false, alive, completed, Option.bind_eq_bind,
      Option.bind_some, added]
  · have kept := delivered.valid
    exact { delivered with
      valid := ⟨kept.keyed, kept.apart, kept.unread, kept.received, kept.empty_fin, kept.off_le_len,
        kept.len_le_fin, kept.len_le_maxData, kept.maxData_lt⟩
      consumed := by rw [delivered.flowControl] }

end Quiche.RecvBuf
