import Quiche.Stream.SendBuf.Emit
import Quiche.Stream.SendBuf.Loss

namespace Quiche.SendBuf

/-! Where the queue of a stream ends. As for the receive side, these are statements about
calls that return, and hold for streams that were stopped or shut down as well. -/

/-- The stretch of the stream that a buffer shows. -/
def span (buf : RangeBuf) : Nat × Nat := (buf.viewOff, buf.maxOff)

/-- The queued buffers are in order, within the data that was written. -/
structure Placed (send : SendBuf) : Prop where
  ordered : (send.data.map span).Pairwise fun left right => left.2 ≤ right.1
  within : ∀ stretch ∈ send.data.map span, stretch.2 ≤ send.off
  emitOff_le : send.emitOff ≤ send.off

theorem new_placed (maxData : Nat) : (new maxData).Placed where
  ordered := .nil
  within := by simp [new]
  emitOff_le := Nat.le_refl 0

variable {send next : SendBuf}

theorem Placed.maxOff_le (placed : send.Placed) {buf : RangeBuf} (member : buf ∈ send.data) : buf.maxOff ≤ send.off :=
  placed.within _ (List.mem_map_of_mem member)

theorem Placed.congr (placed : send.Placed) (data : next.data.map span = send.data.map span)
    (off : next.off = send.off) (emitOff : next.emitOff ≤ send.off) : next.Placed where
  ordered := by rw [data]; exact placed.ordered
  within := by rw [data, off]; exact placed.within
  emitOff_le := by rw [off]; exact emitOff

theorem Placed.offFront_le (placed : send.Placed) : send.offFront ≤ send.off := by
  rw [offFront]
  split
  · rename_i buf found
    have member := List.mem_of_mem_drop (List.mem_of_find?_eq_some found)
    exact Nat.le_trans buf.off_le_maxOff (placed.maxOff_le member)
  · exact Nat.le_refl _

/-- The change leaves the end of the data. -/
structure Kept (send next : SendBuf) : Prop where
  placed : send.Placed → next.Placed
  off : next.off = send.off
  error : next.error = send.error

section Write

variable {reserve filled : SendReserve} {fin : Bool}

theorem appendBuf_placed {buf : List UInt8} (appended : reserve.appendBuf buf = .ok filled) :
    (reserve.inner.Placed → filled.inner.Placed) ∧
      filled.inner.off + filled.reserved = reserve.inner.off + reserve.reserved ∧
      filled.inner.error = reserve.inner.error := by
  rw [SendReserve.appendBuf] at appended
  dsimp only at appended
  split at appended
  · cases appended
  rename_i fits
  cases appended
  refine ⟨fun placed => ⟨?_, ?_, Nat.le_trans placed.emitOff_le (Nat.le_add_right _ _)⟩, ?_, rfl⟩
  · rw [List.map_append, List.pairwise_append]
    refine ⟨placed.ordered, List.pairwise_singleton .., fun stretch earlier last member => ?_⟩
    cases List.mem_singleton.mp member
    exact placed.within stretch earlier
  · rw [List.map_append]
    intro stretch member
    rcases List.mem_append.mp member with earlier | last
    · exact Nat.le_trans (placed.within stretch earlier) (Nat.le_add_right _ _)
    · cases List.mem_singleton.mp last
      exact Nat.le_refl _
  · dsimp only
    omega

theorem appendBufs_placed {bufs : List (List UInt8)} (appended : reserve.appendBufs bufs = .ok filled) :
    (reserve.inner.Placed → filled.inner.Placed) ∧
      filled.inner.off + filled.reserved = reserve.inner.off + reserve.reserved ∧
      filled.inner.error = reserve.inner.error := by
  induction bufs generalizing reserve with
  | nil =>
    cases appended
    exact ⟨id, rfl, rfl⟩
  | cons buf rest ih =>
    rw [SendReserve.appendBufs] at appended
    cases first : reserve.appendBuf buf with
    | error error =>
      rw [first] at appended
      cases appended
    | ok middle =>
      rw [first] at appended
      obtain ⟨middlePlaced, sum, middleError⟩ := appendBuf_placed first
      obtain ⟨finalPlaced, total, finalError⟩ := ih appended
      exact ⟨finalPlaced ∘ middlePlaced, total.trans sum, finalError.trans middleError⟩

theorem finish_spec (finished : reserve.finish = some next) : reserve.reserved = 0 ∧ next = reserve.inner := by
  rw [SendReserve.finish] at finished
  split at finished
  · rename_i empty
    cases finished
    exact ⟨empty, rfl⟩
  · cases finished

theorem reserveForWrite_frame {len : Nat} (reserved : send.reserveForWrite len fin = some (.ok reserve)) :
    reserve.reserved ≤ len ∧ ∃ finOff, reserve.inner = { send with finOff } := by
  rw [reserveForWrite] at reserved
  dsimp only at reserved
  split at reserved
  · cases reserved
  · cases reserved
  rename_i cap _
  generalize (if len > cap then false else fin) = last at reserved
  generalize clamped : (if len > cap then cap else len) = size at reserved
  have small : size ≤ len := by
    rw [← clamped]
    split <;> omega
  split at reserved
  · cases reserved
  cases reserved
  have bound : ∀ (skips : Prop) [Decidable skips], (if skips then 0 else size) ≤ len := by
    intro skips _
    split
    · exact Nat.zero_le _
    · exact small
  dsimp only
  refine ⟨bound _, ?_⟩
  split
  · exact ⟨_, rfl⟩
  · exact ⟨send.finOff, rfl⟩

theorem reserveForWrite_extends {len : Nat} (reserved : send.reserveForWrite len fin = some (.ok reserve)) :
    reserve.reserved ≤ len ∧ (send.Placed → reserve.inner.Placed) ∧ reserve.inner.off = send.off ∧
      reserve.inner.error = send.error := by
  obtain ⟨small, finOff, inner⟩ := reserveForWrite_frame reserved
  rw [inner]
  exact ⟨small, fun placed => ⟨placed.ordered, placed.within, placed.emitOff_le⟩, rfl, rfl⟩

def accepted : Except Error Nat → Nat
  | .ok count => count
  | .error _ => 0

/-- The accepted bytes are appended. -/
structure Extended (send : SendBuf) (len : Nat) (result : Except Error Nat) (next : SendBuf) : Prop where
  placed : send.Placed → next.Placed
  off : next.off = send.off + accepted result
  le : accepted result ≤ len
  error : next.error = send.error
  failed : ∀ error, result = .error error → next = send

theorem storing_extends {len : Nat} {bufs : Nat → List (List UInt8)} {result : Except Error Nat}
    (stored : send.storing len fin bufs = some (next, result)) : Extended send len result next := by
  obtain ⟨reservation, reserved, stored⟩ := Option.bind_eq_some_iff.mp stored
  cases reservation with
  | error error =>
    cases stored
    exact ⟨id, rfl, Nat.zero_le _, rfl, fun _ _ => rfl⟩
  | ok reserve =>
    obtain ⟨small, before, start, same⟩ := reserveForWrite_extends reserved
    dsimp only at stored
    split at stored
    · cases stored
    rename_i filled appended
    obtain ⟨final, finished, stored⟩ := Option.bind_eq_some_iff.mp stored
    cases stored
    obtain ⟨empty, rfl⟩ := finish_spec finished
    obtain ⟨placed, total, error⟩ := appendBufs_placed appended
    refine ⟨placed ∘ before, ?_, small, error.trans same, fun _ failed => by cases failed⟩
    rw [accepted, ← start]
    omega

theorem write_extends {data : List UInt8} {result : Except Error Nat}
    (written : send.write data fin = some (next, result)) : Extended send data.length result next :=
  storing_extends (write_eq_storing send data fin ▸ written)

theorem appendBuf_extends {data : List UInt8} {cap : Nat} {result : Except Error (Nat × Option (List UInt8))}
    (appended : send.appendBuf data cap fin = some (next, result)) :
    Extended send (min cap data.length) (result.map (·.1)) next :=
  storing_extends (storing_of_appendBuf appended)

end Write

section Emit

theorem span_consume {buf : RangeBuf} {count : Nat} (bound : count ≤ buf.len) :
    span (buf.consume count bound) = span buf := by
  rw [span, RangeBuf.consume_viewOff, RangeBuf.consume_maxOff, span]

theorem map_span_set {data : List RangeBuf} {place : Nat} {buf changed : RangeBuf}
    (found : data[place]? = some buf) (same : span changed = span buf) :
    (data.set place changed).map span = data.map span := by
  rw [List.map_set, same]
  apply List.ext_getElem?
  intro index
  rw [List.getElem?_set]
  split
  · rename_i here
    subst here
    rw [List.getElem?_map, found, List.length_map, if_pos (List.getElem?_eq_some_iff.mp found).1]
    rfl
  · rfl

/-- Emitting leaves the buffers where they are. -/
structure Sent (send : SendBuf) (nextOff : Nat) (next : SendBuf) (reached : Nat) : Prop where
  data : next.data.map span = send.data.map span
  off : next.off = send.off
  emitOff : next.emitOff = send.emitOff
  error : next.error = send.error
  reached : send.Placed → nextOff ≤ send.off → reached ≤ send.off

theorem emitLoop_sent {fuel outLen nextOff reached : Nat} {out result : List UInt8}
    (emitted : emitLoop fuel send outLen nextOff out = some (next, reached, result)) :
    Sent send nextOff next reached := by
  induction fuel generalizing send outLen nextOff out with
  | zero => cases emitted
  | succ fuel ih =>
    have stays : Sent send nextOff send nextOff := ⟨rfl, rfl, rfl, rfl, fun _ below => below⟩
    rw [emitLoop] at emitted
    split at emitted
    · cases emitted
      exact stays
    split at emitted
    · cases emitted
      exact stays
    split at emitted
    · cases emitted
      exact stays
    rename_i buf found
    split at emitted
    · have later := ih emitted
      exact ⟨later.data, later.off, later.emitOff, later.error, fun placed =>
        later.reached ⟨placed.ordered, placed.within, placed.emitOff_le⟩⟩
    dsimp only at emitted
    have same := map_span_set found (span_consume (Nat.min_le_left buf.len outLen))
    have below : send.Placed → buf.off + min buf.len outLen ≤ send.off := fun placed =>
      Nat.le_trans (Nat.add_le_add_left (Nat.min_le_left _ _) _)
        (placed.maxOff_le (List.mem_of_getElem? found))
    split at emitted
    · cases emitted
    split at emitted
    · cases emitted
      exact ⟨same, rfl, rfl, rfl, fun placed _ => below placed⟩
    · have later := ih emitted
      refine ⟨later.data.trans same, later.off, later.emitOff, later.error, fun placed _ => ?_⟩
      exact later.reached (placed.congr same rfl placed.emitOff_le) (below placed)

theorem emit_kept {outLen : Nat} {out : List UInt8} {fin : Bool}
    (emitted : send.emit outLen = some (next, out, fin)) : Kept send next := by
  obtain ⟨⟨moved, reached, sent⟩, looped, emitted⟩ := Option.bind_eq_some_iff.mp emitted
  cases emitted
  have sent := emitLoop_sent looped
  refine ⟨fun placed => placed.congr sent.data sent.off ?_, sent.off, sent.error⟩
  dsimp only
  rw [sent.emitOff]
  exact Nat.max_le.mpr ⟨placed.emitOff_le, sent.reached placed placed.offFront_le⟩

end Emit

section Packets

variable {off len : Nat}

theorem ack_frame (acked : send.ack off len = some next) : ∃ ranges, next = { send with acked := ranges } := by
  obtain ⟨ranges, _, same⟩ := Option.bind_eq_some_iff.mp acked
  cases same
  exact ⟨ranges, rfl⟩

theorem ackAndDrop_frame (acked : send.ackAndDrop off len = some next) : ∃ dropped ranges, next =
      { send with data := send.data.drop dropped, pos := send.pos - dropped, acked := ranges } := by
  obtain ⟨marked, acking, acked⟩ := Option.bind_eq_some_iff.mp acked
  obtain ⟨ranges, rfl⟩ := ack_frame acking
  dsimp only at acked
  split at acked
  · cases acked
    exact ⟨0, ranges, rfl⟩
  split at acked
  · cases acked
    exact ⟨0, ranges, rfl⟩
  · cases acked
    exact ⟨_, ranges, rfl⟩

theorem Placed.drop (placed : send.Placed) (dropped pos : Nat) (ranges : RangeSet) :
    { send with data := send.data.drop dropped, pos := pos, acked := ranges }.Placed where
  ordered := by
    rw [List.map_drop]
    exact placed.ordered.sublist (List.drop_sublist ..)
  within := by
    rw [List.map_drop]
    exact fun stretch member => placed.within stretch (List.mem_of_mem_drop member)
  emitOff_le := placed.emitOff_le

theorem ackAndDrop_kept (acked : send.ackAndDrop off len = some next) : Kept send next := by
  obtain ⟨dropped, ranges, rfl⟩ := ackAndDrop_frame acked
  exact ⟨fun placed => placed.drop dropped _ ranges, rfl, rfl⟩

theorem frontOf_cons_le {buf : RangeBuf} {rest : List RangeBuf} {last : Nat}
    (later : ∀ other ∈ rest, buf.maxOff ≤ other.viewOff) (within : buf.maxOff ≤ last) :
    frontOf last (buf :: rest) ≤ frontOf last rest := by
  by_cases empty : buf.isEmpty = true
  · rw [frontOf_skip empty]
  · rw [frontOf_here empty, frontOf]
    split
    · rename_i other found
      have order := later other (List.mem_of_find?_eq_some found)
      exact Nat.le_trans buf.off_le_maxOff (Nat.le_trans order other.viewOff_le_off)
    · exact Nat.le_trans buf.off_le_maxOff within

theorem frontOf_le_drop {rest : List RangeBuf} {last : Nat}
    (ordered : rest.Pairwise fun left right => left.maxOff ≤ right.viewOff)
    (within : ∀ buf ∈ rest, buf.maxOff ≤ last) (dropped : Nat) :
    frontOf last rest ≤ frontOf last (rest.drop dropped) := by
  induction rest generalizing dropped with
  | nil => rw [List.drop_nil]
  | cons buf rest ih =>
    cases dropped with
    | zero => exact Nat.le_refl _
    | succ dropped =>
      obtain ⟨first, others⟩ := List.pairwise_cons.mp ordered
      obtain ⟨here, behind⟩ := List.forall_mem_cons.mp within
      exact Nat.le_trans (frontOf_cons_le first here) (ih others behind dropped)

theorem Placed.ackAndDrop_offFront (placed : send.Placed) (acked : send.ackAndDrop off len = some next) :
    send.offFront ≤ next.offFront ∧ (next.isEmpty = false → send.isEmpty = false) ∧ next.maxOff = send.maxOff := by
  obtain ⟨dropped, ranges, rfl⟩ := ackAndDrop_frame acked
  refine ⟨?_, ?_, rfl⟩
  · have rest : (send.data.drop dropped).drop (send.pos - dropped) =
        (send.data.drop send.pos).drop (dropped - send.pos) := by
      rw [List.drop_drop, List.drop_drop]
      congr 1
      omega
    have ordered := List.pairwise_map.mp placed.ordered
    show frontOf send.off (send.data.drop send.pos) ≤
      frontOf send.off ((send.data.drop dropped).drop (send.pos - dropped))
    rw [rest]
    apply frontOf_le_drop (ordered.sublist (List.drop_sublist ..))
    exact fun buf member => placed.maxOff_le (List.mem_of_mem_drop member)
  · intro remains
    cases data : send.data with
    | nil => simp [isEmpty, data] at remains
    | cons buf rest => simp [isEmpty, data]

variable {maxOff grown : Nat} {rest kept : List RangeBuf}

theorem Rewound.hull (rewound : Rewound off maxOff rest kept grown) :
    ∀ new ∈ kept, ∃ old ∈ rest, old.viewOff ≤ new.viewOff ∧ new.maxOff ≤ old.maxOff := by
  induction rewound with
  | stop rest past => exact fun new member => ⟨new, member, Nat.le_refl _, Nat.le_refl _⟩
  | @skip buf rest kept grown ahead following ih =>
    intro new member
    rcases List.mem_cons.mp member with rfl | later
    · exact ⟨new, List.mem_cons_self, Nat.le_refl _, Nat.le_refl _⟩
    · obtain ⟨old, present, within⟩ := ih new later
      exact ⟨old, List.mem_cons_of_mem _ present, within⟩
  | @whole buf rest kept grown reached ended following ih =>
    intro new member
    rcases List.mem_cons.mp member with rfl | later
    · refine ⟨buf, List.mem_cons_self, ?_, ?_⟩
      · rw [rewindLost_viewOff]
      · rw [rewindLost_maxOff]
    · obtain ⟨old, present, within⟩ := ih new later
      exact ⟨old, List.mem_cons_of_mem _ present, within⟩
  | @cut buf left right rest inside shorter split =>
    have whole := buf.maxOff_eq_view
    intro new member
    rcases List.mem_cons.mp member with rfl | later
    · refine ⟨buf, List.mem_cons_self, ?_, ?_⟩
      · rw [rewindLost_viewOff, split.left_viewOff]
      · rw [rewindLost_maxOff, split.left_maxOff]
        omega
    rcases List.mem_cons.mp later with rfl | behind
    · refine ⟨buf, List.mem_cons_self, ?_, ?_⟩
      · rw [split.right_viewOff]
        exact Nat.le_add_right _ _
      · rw [split.right_maxOff (by omega)]
    · exact ⟨new, List.mem_cons_of_mem _ behind, Nat.le_refl _, Nat.le_refl _⟩

theorem Rewound.ordered (rewound : Rewound off maxOff rest kept grown)
    (ordered : rest.Pairwise fun left right => left.maxOff ≤ right.viewOff) :
    kept.Pairwise fun left right => left.maxOff ≤ right.viewOff := by
  induction rewound with
  | stop rest past => exact ordered
  | @skip buf rest kept grown ahead following ih =>
    obtain ⟨first, others⟩ := List.pairwise_cons.mp ordered
    refine List.pairwise_cons.mpr ⟨fun new member => ?_, ih others⟩
    obtain ⟨old, present, lower, _⟩ := following.hull new member
    exact Nat.le_trans (first old present) lower
  | @whole buf rest kept grown reached ended following ih =>
    obtain ⟨first, others⟩ := List.pairwise_cons.mp ordered
    refine List.pairwise_cons.mpr ⟨fun new member => ?_, ih others⟩
    obtain ⟨old, present, lower, _⟩ := following.hull new member
    rw [rewindLost_maxOff]
    exact Nat.le_trans (first old present) lower
  | @cut buf left right rest inside shorter split =>
    obtain ⟨first, others⟩ := List.pairwise_cons.mp ordered
    have whole := buf.maxOff_eq_view
    refine List.pairwise_cons.mpr ⟨fun new member => ?_, List.pairwise_cons.mpr ⟨fun new member => ?_, others⟩⟩
    · rw [rewindLost_maxOff, split.left_maxOff]
      rcases List.mem_cons.mp member with rfl | behind
      · rw [split.right_viewOff]
      · have := first new behind
        omega
    · rw [split.right_maxOff (by omega)]
      exact first new member

theorem retransmit_kept (retransmitted : send.retransmit off len = some next) : Kept send next := by
  rw [retransmit] at retransmitted
  split at retransmitted
  · cases retransmitted
    exact ⟨id, rfl, rfl⟩
  split at retransmitted
  · cases retransmitted
    exact ⟨id, rfl, rfl⟩
  obtain ⟨kept, grown, pos, looped, rewound, _, _⟩ := retransmitLoop_exists off (off + len) [] send.data send rfl
  cases looped.symm.trans retransmitted
  refine ⟨fun placed => ⟨?_, ?_, placed.emitOff_le⟩, rfl, rfl⟩
  · exact List.pairwise_map.mpr (rewound.ordered (List.pairwise_map.mp placed.ordered))
  · intro stretch member
    obtain ⟨new, present, rfl⟩ := List.mem_map.mp member
    obtain ⟨old, before, _, upper⟩ := rewound.hull new present
    exact Nat.le_trans upper (placed.maxOff_le before)

end Packets

section Reset

/-- What a stream gives up when it is cut at what was sent. -/
def unsent (send : SendBuf) : Nat := send.offBack - max send.offFront send.emitOff

/-- What was not sent is dropped. -/
structure Cut (send next : SendBuf) : Prop where
  placed : next.Placed
  data : next.data = []
  off : next.off + send.unsent = send.off

variable {finalSize given : Nat}

theorem Placed.reset (placed : send.Placed)
    (reset : send.reset = some (next, finalSize, given)) : Cut send next ∧ given = send.unsent := by
  obtain ⟨marked, acking, reset⟩ := Option.bind_eq_some_iff.mp reset
  obtain ⟨ranges, rfl⟩ := ack_frame acking
  cases reset
  refine ⟨⟨⟨.nil, by simp, Nat.le_max_right _ _⟩, rfl, ?_⟩, rfl⟩
  have bound : max send.offFront send.emitOff ≤ send.off := Nat.max_le.mpr ⟨placed.offFront_le, placed.emitOff_le⟩
  exact Nat.add_sub_of_le bound

theorem Placed.stop {errorCode : Nat} (placed : send.Placed)
    (stopped : send.stop errorCode = some (next, .ok (finalSize, given))) : Cut send next ∧ given = send.unsent := by
  rw [SendBuf.stop] at stopped
  split at stopped
  · cases stopped
  obtain ⟨⟨cut, size, rest⟩, reset, stopped⟩ := Option.bind_eq_some_iff.mp stopped
  cases stopped
  obtain ⟨wasCut, same⟩ := placed.reset reset
  exact ⟨⟨⟨wasCut.placed.ordered, wasCut.placed.within, wasCut.placed.emitOff_le⟩, wasCut.data, wasCut.off⟩, same⟩

theorem Placed.shutdown (placed : send.Placed) (shut : send.shutdown = some (next, .ok (finalSize, given))) :
    Cut send next ∧ given = send.unsent ∧ send.isShutdown = false := by
  rw [SendBuf.shutdown] at shut
  split at shut
  · cases shut
  rename_i running
  obtain ⟨⟨cut, size, rest⟩, reset, shut⟩ := Option.bind_eq_some_iff.mp shut
  cases shut
  have marked : { send with isShutdown := true }.Placed := ⟨placed.ordered, placed.within, placed.emitOff_le⟩
  obtain ⟨wasCut, same⟩ := marked.reset reset
  exact ⟨⟨wasCut.placed, wasCut.data, wasCut.off⟩, same, by simpa using running⟩

end Reset

/-! Which bytes come back when a range is lost, also for streams that were stopped or shut down. -/

variable {buf : RangeBuf} {rest kept : List RangeBuf} {off len maxOff grown place : Nat}

/-- The byte is still in the queue, read or not. -/
def Held (data : List RangeBuf) (place : Nat) : Prop := ∃ buf ∈ data, buf.viewOff ≤ place ∧ place < buf.maxOff

theorem held_cons : Held (buf :: rest) place ↔ buf.viewOff ≤ place ∧ place < buf.maxOff ∨ Held rest place := by
  simp [Held]

theorem Unread.held (waits : Unread rest place) : Held rest place := by
  obtain ⟨buf, member, lower, upper⟩ := waits
  exact ⟨buf, member, Nat.le_trans buf.viewOff_le_off lower, upper⟩

namespace Rewound

section

variable (rewound : Rewound off maxOff rest kept grown)

include rewound

theorem held_iff : Held kept place ↔ Held rest place := by
  induction rewound with
  | stop rest past => rfl
  | skip ahead following ih => rw [held_cons, held_cons, ih]
  | @whole buf rest kept grown reached ended following ih =>
    rw [held_cons, held_cons, ih, rewindLost_viewOff, rewindLost_maxOff]
  | @cut buf left right rest inside shorter split =>
    have whole := buf.maxOff_eq_view
    rw [held_cons, held_cons, held_cons, rewindLost_viewOff, rewindLost_maxOff, split.left_viewOff,
      split.left_maxOff, split.right_viewOff, split.right_maxOff (by omega), ← or_assoc]
    refine or_congr ?_ Iff.rfl
    omega

theorem unread_held
    (ordered : rest.Pairwise fun left right => left.maxOff ≤ right.viewOff)
    (holds : Held rest place) (lost : off ≤ place) (before : place < maxOff) : Unread kept place := by
  induction rewound with
  | stop rest past =>
    exfalso
    obtain ⟨buf, member, lower, upper⟩ := holds
    cases rest with
    | nil => cases member
    | cons head rest =>
      have start := past head rfl
      obtain ⟨follows, _⟩ := List.pairwise_cons.mp ordered
      rcases List.mem_cons.mp member with rfl | later
      · omega
      · have := follows buf later
        have := head.viewOff_le_off
        have := head.off_le_maxOff
        omega
  | @skip buf rest kept grown ahead following ih =>
    rcases held_cons.mp holds with inside | later
    · omega
    · exact unread_cons.mpr (.inr (ih (List.pairwise_cons.mp ordered).2 later))
  | @whole buf rest kept grown reached ended following ih =>
    rcases held_cons.mp holds with ⟨lower, upper⟩ | later
    · exact unread_cons.mpr (.inl (rewindLost_covers_lost lost lower upper))
    · exact unread_cons.mpr (.inr (ih (List.pairwise_cons.mp ordered).2 later))
  | @cut buf left right rest inside shorter split =>
    have leftEnd := split.left_maxOff
    have leftOff := split.left_viewOff
    rcases held_cons.mp holds with ⟨lower, upper⟩ | later
    · exact unread_cons.mpr (.inl (rewindLost_covers_lost lost (by omega) (by omega)))
    · obtain ⟨next, member, lower, _⟩ := later
      have := (List.pairwise_cons.mp ordered).1 next member
      omega

theorem unread_iff (order : off ≤ maxOff)
    (ordered : rest.Pairwise fun left right => left.maxOff ≤ right.viewOff) :
    Unread kept place ↔ Unread rest place ∨ (off ≤ place ∧ place < maxOff) ∧ Held rest place := by
  constructor
  · intro waits
    exact (rewound.unread_only order waits).imp_right fun lost => ⟨lost, rewound.held_iff.mp waits.held⟩
  · rintro (waits | ⟨⟨lost, before⟩, holds⟩)
    · exact rewound.unread_mono waits
    · exact rewound.unread_held ordered holds lost before

end

end Rewound

/-- Marking the range as lost brings the byte at the place back. -/
def Returns (send : SendBuf) (off len place : Nat) : Prop :=
  (off ≤ place ∧ place < off + len) ∧ send.ackOff < off + len ∧ Held send.data place

/-- What a loss does to the bytes of a stream. -/
structure Marked (send : SendBuf) (off len : Nat) (next : SendBuf) : Prop where
  off_eq : next.off = send.off
  maxData : next.maxData = send.maxData
  acked : next.acked = send.acked
  held : ∀ place, Held next.data place ↔ Held send.data place
  unread : ∀ place, Unread next.data place ↔ Unread send.data place ∨ send.Returns off len place

theorem retransmit_marked (placed : send.Placed) (off len : Nat) :
    ∃ next, send.retransmit off len = some next ∧ next.Placed ∧ Marked send off len next := by
  suffices marked : ∃ next, send.retransmit off len = some next ∧ Marked send off len next by
    obtain ⟨next, retransmitted, marked⟩ := marked
    exact ⟨next, retransmitted, (retransmit_kept retransmitted).placed placed, marked⟩
  rw [retransmit]
  by_cases empty : send.data.isEmpty = true
  · have nothing : ∀ place, ¬ Held send.data place := by
      rintro place ⟨buf, member, _⟩
      rw [List.isEmpty_iff.mp empty] at member
      cases member
    refine ⟨send, if_pos empty, rfl, rfl, rfl, fun _ => Iff.rfl, fun place => ?_⟩
    simp [Returns, nothing place]
  by_cases acknowledged : off + len ≤ send.ackOff
  · refine ⟨send, (if_neg empty).trans (if_pos acknowledged), rfl, rfl, rfl, fun _ => Iff.rfl, fun place => ?_⟩
    have past : ¬ send.ackOff < off + len := Nat.not_lt.mpr acknowledged
    simp [Returns, past]
  rw [if_neg empty, if_neg acknowledged]
  obtain ⟨kept, grown, pos, looped, rewound, _, _⟩ := retransmitLoop_exists off (off + len) [] send.data send rfl
  refine ⟨_, looped, rfl, rfl, rfl, fun _ => rewound.held_iff, fun place => ?_⟩
  rw [Returns, and_iff_right (Nat.not_le.mp acknowledged)]
  exact rewound.unread_iff (Nat.le_add_right _ _) (List.pairwise_map.mp placed.ordered)

/-- The byte at the place, if it is still held, waits to be sent. -/
def Waits (send : SendBuf) (place : Nat) : Prop := send.ackOff ≤ place → Held send.data place → Unread send.data place

section

variable (marked : Marked send off len next)

include marked

theorem Marked.ackOff : next.ackOff = send.ackOff := by
  rw [SendBuf.ackOff, SendBuf.ackOff, marked.acked]

theorem Marked.returns_iff {start count : Nat} : next.Returns start count place ↔ send.Returns start count place := by
  rw [Returns, Returns, marked.ackOff, marked.held]

theorem Marked.waits_iff : next.Waits place ↔ send.Waits place ∨ off ≤ place ∧ place < off + len := by
  rw [Waits, Waits, marked.ackOff, marked.held, marked.unread]
  constructor
  · intro waits
    by_cases lost : off ≤ place ∧ place < off + len
    · exact .inr lost
    · exact .inl fun above holds => (waits above holds).resolve_right fun returns => lost returns.1
  · rintro (waits | lost) above holds
    · exact .inl (waits above holds)
    · exact .inr ⟨lost, Nat.lt_of_le_of_lt above lost.2, holds⟩

end

/-- A byte below the limit waits to be sent. -/
def Sendable (send : SendBuf) : Prop := ∃ place < send.maxData, Unread send.data place

theorem Marked.sendable_iff (marked : Marked send off len next) :
    next.Sendable ↔ send.Sendable ∨ ∃ place < send.maxData, send.Returns off len place := by
  simp only [Sendable, marked.maxData, marked.unread, and_or_left, exists_or]

theorem unread_offFront (front : send.offFront < send.off) : Unread send.data send.offFront := by
  rw [offFront] at front ⊢
  split at front
  · rename_i buf found
    have waits := List.find?_some found
    rw [Bool.not_eq_true', ← Bool.not_eq_true, RangeBuf.isEmpty_iff_len] at waits
    refine ⟨buf, List.mem_of_mem_drop (List.mem_of_find?_eq_some found), Nat.le_refl _, ?_⟩
    rw [RangeBuf.maxOff]
    omega
  · exact absurd front (Nat.lt_irrefl _)

end Quiche.SendBuf
