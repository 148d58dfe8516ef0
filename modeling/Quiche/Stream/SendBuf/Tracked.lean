import Quiche.Stream.SendBuf.Offsets

namespace Quiche.SendBuf

open Data

variable {send next : SendBuf}

/-- The data does not run past the final offset. -/
def EndsWithin (send : SendBuf) (last : Nat) : Prop := ∀ finOff, send.finOff = some finOff → last ≤ finOff

section Write

variable {reserve filled : SendReserve} {fin : Bool}

theorem appendBuf_frame {buf : List UInt8} (appended : reserve.appendBuf buf = .ok filled) :
    ∃ data off len, filled.inner = { reserve.inner with data, off, len } := by
  rw [SendReserve.appendBuf] at appended
  dsimp only at appended
  split at appended
  · cases appended
  cases appended
  exact ⟨_, _, _, rfl⟩

theorem appendBufs_frame {bufs : List (List UInt8)} (appended : reserve.appendBufs bufs = .ok filled) :
    ∃ data off len, filled.inner = { reserve.inner with data, off, len } := by
  induction bufs generalizing reserve with
  | nil =>
    cases appended
    exact ⟨_, _, _, rfl⟩
  | cons buf rest ih =>
    rw [SendReserve.appendBufs] at appended
    cases first : reserve.appendBuf buf with
    | error error =>
      rw [first] at appended
      cases appended
    | ok middle =>
      rw [first] at appended
      obtain ⟨_, _, _, middleFrame⟩ := appendBuf_frame first
      obtain ⟨data, off, len, frame⟩ := ih appended
      rw [middleFrame] at frame
      exact ⟨data, off, len, frame⟩

/-- The reserve is within the limit and behind the data so far. -/
structure Granted (send : SendBuf) (reserve : SendReserve) : Prop where
  within : send.off ≤ send.maxData → send.off + reserve.reserved ≤ send.maxData
  ends : send.EndsWithin send.off → reserve.inner.EndsWithin (send.off + reserve.reserved)
  final : send.finOff = some send.off → reserve.reserved = 0 ∧ reserve.inner.finOff = some send.off

theorem reserveForWrite_granted {len : Nat} (reserved : send.reserveForWrite len fin = some (.ok reserve)) :
    Granted send reserve := by
  rw [reserveForWrite] at reserved
  dsimp only at reserved
  split at reserved
  · cases reserved
  · cases reserved
  rename_i cap capacity
  have room : send.off ≤ send.maxData → send.off + cap = send.maxData := by
    intro within
    rw [SendBuf.cap] at capacity
    split at capacity
    · cases capacity
    · obtain ⟨left, difference, same⟩ := Option.map_eq_some_iff.mp capacity
      cases same
      obtain ⟨_, rfl⟩ := subChecked_spec difference
      omega
  generalize (if len > cap then false else fin) = last at reserved
  generalize clamped : (if len > cap then cap else len) = size at reserved
  have small : size ≤ cap ∧ size ≤ len := by
    rw [← clamped]
    split <;> omega
  split at reserved
  · cases reserved
  rename_i open_
  cases reserved
  have bound : ∀ (skips : Prop) [Decidable skips], (if skips then 0 else size) ≤ size := by
    intro skips _
    split
    · exact Nat.zero_le _
    · exact Nat.le_refl _
  refine ⟨fun within => ?_, fun ends finOff known => ?_, fun final => ?_⟩
  · have := room within
    exact Nat.le_trans (Nat.add_le_add_left (bound _) _) (by omega)
  · apply Nat.le_trans (Nat.add_le_add_left (Nat.le_trans (bound _) small.2) send.off)
    dsimp only at known
    split at known
    · cases known
      exact Nat.le_refl _
    · rw [known, breaksFinal] at open_
      simp only [Bool.or_eq_true, decide_eq_true_eq, not_or] at open_
      omega
  · rw [final, breaksFinal] at open_
    simp only [Bool.or_eq_true, decide_eq_true_eq, not_or] at open_
    have none : len = 0 := by omega
    subst none
    dsimp only
    refine ⟨Nat.le_zero.mp (Nat.le_trans (bound _) (by omega)), ?_⟩
    split
    · rfl
    · exact final

/-- The reserve was filled with data. -/
structure Filled (send next : SendBuf) : Prop where
  frame : ∃ data off len finOff, next = { send with data, off, len, finOff }
  within : send.off ≤ send.maxData → next.off ≤ send.maxData
  ends : send.EndsWithin send.off → next.EndsWithin next.off
  final : send.finOff = some send.off → next.off = send.off ∧ next.finOff = some send.off ∧ next.data = send.data

theorem filled_same (send : SendBuf) : Filled send send := ⟨⟨_, _, _, _, rfl⟩, id, id, fun final => ⟨rfl, final, rfl⟩⟩

theorem filled_of_reserved {len : Nat} (reserved : send.reserveForWrite len fin = some (.ok reserve))
    (frame : ∃ data off len, filled.inner = { reserve.inner with data, off, len })
    (total : filled.inner.off + filled.reserved = reserve.inner.off + reserve.reserved)
    (idle : reserve.reserved = 0 → filled.inner.data = reserve.inner.data)
    (finished : filled.finish = some next) : Filled send next := by
  obtain ⟨empty, rfl⟩ := finish_spec finished
  obtain ⟨_, finOff, inner⟩ := reserveForWrite_frame reserved
  have limits := reserveForWrite_granted reserved
  have start : reserve.inner.off = send.off := by rw [inner]
  obtain ⟨data, off, len, filledFrame⟩ := frame
  refine ⟨⟨data, off, len, finOff, ?_⟩, fun within => ?_, fun ends => ?_, fun final => ?_⟩
  · rw [filledFrame, inner]
  · have := limits.within within
    omega
  · have ended := limits.ends ends
    intro finOff known
    rw [filledFrame] at known
    have := ended finOff known
    omega
  · obtain ⟨none, final⟩ := limits.final final
    refine ⟨by omega, ?_, ?_⟩
    · rw [← final, filledFrame]
    · rw [idle none, inner]

theorem storing_filled {len : Nat} {bufs : Nat → List (List UInt8)} {result : Except Error Nat} (none : bufs 0 = [])
    (stored : send.storing len fin bufs = some (next, result)) : Filled send next := by
  obtain ⟨reservation, reserved, stored⟩ := Option.bind_eq_some_iff.mp stored
  cases reservation with
  | error error =>
    cases stored
    exact filled_same send
  | ok reserve =>
    dsimp only at stored
    split at stored
    · cases stored
    rename_i filled appended
    obtain ⟨final, finished, stored⟩ := Option.bind_eq_some_iff.mp stored
    cases stored
    refine filled_of_reserved reserved (appendBufs_frame appended) (appendBufs_placed appended).2.1 (fun empty => ?_)
      finished
    rw [empty, none] at appended
    cases appended
    rfl

theorem write_filled {data : List UInt8} {result : Except Error Nat}
    (written : send.write data fin = some (next, result)) : Filled send next :=
  storing_filled (writeBufs_zero data) (write_eq_storing send data fin ▸ written)

theorem appendBuf_filled {data : List UInt8} {cap : Nat} {result : Except Error (Nat × Option (List UInt8))}
    (appended : send.appendBuf data cap fin = some (next, result)) : Filled send next :=
  storing_filled rfl (storing_of_appendBuf appended)

end Write

section Emit

theorem emitLoop_frame {fuel outLen nextOff reached : Nat} {out result : List UInt8}
    (emitted : emitLoop fuel send outLen nextOff out = some (next, reached, result)) :
    (∃ data pos len, next = { send with data, pos, len }) ∧ reached + out.length = nextOff + result.length := by
  induction fuel generalizing send outLen nextOff out with
  | zero => cases emitted
  | succ fuel ih =>
    rw [emitLoop] at emitted
    split at emitted
    · cases emitted
      exact ⟨⟨_, _, _, rfl⟩, rfl⟩
    split at emitted
    · cases emitted
      exact ⟨⟨_, _, _, rfl⟩, rfl⟩
    rename_i ahead
    split at emitted
    · cases emitted
      exact ⟨⟨_, _, _, rfl⟩, rfl⟩
    rename_i buf found
    split at emitted
    · obtain ⟨⟨data, pos, len, frame⟩, counted⟩ := ih emitted
      exact ⟨⟨data, pos, len, frame⟩, counted⟩
    rename_i waits
    have front : buf.off = nextOff := by
      obtain ⟨here, value⟩ := List.getElem?_eq_some_iff.mp found
      have rest : send.data.drop send.pos = buf :: send.data.drop (send.pos + 1) := by
        rw [List.drop_eq_getElem_cons here, value]
      have first : send.offFront = buf.off := by
        rw [offFront, rest, List.find?_cons_of_pos (by simpa using waits)]
      simp only [not_or] at ahead
      exact first.symm.trans (Decidable.not_not.mp ahead.2.2.1)
    dsimp only at emitted
    split at emitted
    · cases emitted
    have size : (buf.bytes.take (min buf.len outLen)).length = min buf.len outLen := by
      rw [List.length_take, buf.bytes_length]
      omega
    split at emitted
    · cases emitted
      refine ⟨⟨_, _, _, rfl⟩, ?_⟩
      rw [List.length_append, size]
      omega
    · obtain ⟨⟨data, pos, len, frame⟩, counted⟩ := ih emitted
      refine ⟨⟨data, pos, len, frame⟩, ?_⟩
      rw [List.length_append, size] at counted
      omega

theorem emit_frame {outLen : Nat} {out : List UInt8} {fin : Bool} (emitted : send.emit outLen = some (next, out, fin)) :
    (∃ data pos len, next =
      { send with data, pos, len, emitOff := max send.emitOff (send.offFront + out.length) }) ∧
      fin = (send.finOff == some (send.offFront + out.length)) := by
  obtain ⟨⟨moved, reached, sent⟩, looped, emitted⟩ := Option.bind_eq_some_iff.mp emitted
  cases emitted
  obtain ⟨⟨data, pos, len, rfl⟩, counted⟩ := emitLoop_frame looped
  have reaches : reached = send.offFront + out.length := by simpa using counted
  subst reaches
  exact ⟨⟨data, pos, len, rfl⟩, rfl⟩

end Emit

section Packets

variable {off len : Nat}

theorem retransmit_frame (retransmitted : send.retransmit off len = some next) :
    ∃ data pos len, next = { send with data, pos, len } := by
  rw [retransmit] at retransmitted
  split at retransmitted
  · cases retransmitted
    exact ⟨_, _, _, rfl⟩
  split at retransmitted
  · cases retransmitted
    exact ⟨_, _, _, rfl⟩
  obtain ⟨kept, grown, pos, looped, _⟩ := retransmitLoop_exists off (off + len) [] send.data send rfl
  cases looped.symm.trans retransmitted
  exact ⟨_, _, _, rfl⟩

end Packets

section Tracked

variable {off len : Nat}

/-- The stream was stopped or shut down. -/
def WasReset (send : SendBuf) : Prop := send.error.isSome = true ∨ send.isShutdown = true

/-- Offsets are within their limits, and only what was sent is acknowledged. -/
structure Tracked (send : SendBuf) : Prop where
  placed : send.Placed
  off_le : send.off ≤ send.maxData
  small : send.maxData < 2 ^ 62
  ends : send.EndsWithin send.off
  acked : send.acked.Bounded (2 ^ 62)
  ackedWithin : ∀ place, Covered send.acked.iter place → place < send.off
  ackedSent : ¬ send.WasReset → ∀ place, Covered send.acked.iter place → place < send.emitOff
  settled : send.WasReset → send.finOff = some send.off ∧ send.data = [] ∧
    ∀ place < send.off, Covered send.acked.iter place

theorem new_tracked {maxData : Nat} (small : maxData < 2 ^ 62) : (new maxData).Tracked where
  placed := new_placed maxData
  off_le := Nat.zero_le _
  small := small
  ends := fun _ known => by simp [new] at known
  acked := RangeSet.default_bounded _
  ackedWithin := fun place covered => absurd covered (covered_nil place)
  ackedSent := fun _ place covered => absurd covered (covered_nil place)
  settled := fun marked => by simp [WasReset, new] at marked

theorem Tracked.off_lt (tracked : send.Tracked) : send.off < 2 ^ 62 := Nat.lt_of_le_of_lt tracked.off_le tracked.small

theorem Tracked.cut_le (tracked : send.Tracked) : max send.offFront send.emitOff ≤ send.off :=
  Nat.max_le.mpr ⟨tracked.placed.offFront_le, tracked.placed.emitOff_le⟩

variable {place outLen finalSize unsent : Nat}

section

variable (tracked : send.Tracked)

include tracked

theorem Tracked.acked_lt_cut
    (covered : Covered send.acked.iter place) : place < max send.offFront send.emitOff := by
  by_cases reset : send.WasReset
  · have front : send.offFront = send.off := by
      rw [offFront, (tracked.settled reset).2.1, List.drop_nil]
      rfl
    have := tracked.ackedWithin place covered
    omega
  · have := tracked.ackedSent reset place covered
    omega

theorem Tracked.congr (placed : next.Placed)
    (data : send.data = [] → next.data = []) (off : next.off = send.off)
    (emitOff : send.emitOff ≤ next.emitOff) (maxData : next.maxData = send.maxData)
    (acked : next.acked = send.acked) (finOff : next.finOff = send.finOff)
    (error : next.error = send.error) (isShutdown : next.isShutdown = send.isShutdown) : next.Tracked where
  placed := placed
  off_le := by rw [off, maxData]; exact tracked.off_le
  small := by rw [maxData]; exact tracked.small
  ends := by rw [EndsWithin, finOff, off]; exact tracked.ends
  acked := by rw [acked]; exact tracked.acked
  ackedWithin := by rw [acked, off]; exact tracked.ackedWithin
  ackedSent := by
    rw [WasReset, error, isShutdown, acked]
    exact fun running place covered =>
      Nat.lt_of_lt_of_le (tracked.ackedSent running place covered) emitOff
  settled := by
    rw [WasReset, error, isShutdown, finOff, off, acked]
    intro reset
    obtain ⟨final, empty, all⟩ := tracked.settled reset
    exact ⟨final, data empty, all⟩

theorem Tracked.updateMaxData {limit : Nat} (small : limit < 2 ^ 62) :
    (send.updateMaxData limit).Tracked :=
  { placed := ⟨tracked.placed.ordered, tracked.placed.within, tracked.placed.emitOff_le⟩
    off_le := Nat.le_trans tracked.off_le (Nat.le_max_left _ _)
    small := Nat.max_lt.mpr ⟨tracked.small, small⟩
    ends := tracked.ends
    acked := tracked.acked
    ackedWithin := tracked.ackedWithin
    ackedSent := tracked.ackedSent
    settled := tracked.settled }

theorem Tracked.updateBlockedAt (blockedAt : Option Nat) :
    (send.updateBlockedAt blockedAt).Tracked :=
  tracked.congr ⟨tracked.placed.ordered, tracked.placed.within, tracked.placed.emitOff_le⟩
    id rfl (Nat.le_refl _) rfl rfl rfl rfl rfl

theorem Tracked.filled (placed : next.Placed) (grown : send.off ≤ next.off)
    (filled : Filled send next) : next.Tracked := by
  obtain ⟨⟨data, off, len, finOff, rfl⟩, within, ends, final⟩ := filled
  refine
    { placed := placed
      off_le := within tracked.off_le
      small := tracked.small
      ends := ends tracked.ends
      acked := tracked.acked
      ackedWithin := fun place covered => Nat.lt_of_lt_of_le (tracked.ackedWithin place covered) grown
      ackedSent := tracked.ackedSent
      settled := fun reset => ?_ }
  obtain ⟨ended, empty, covered⟩ := tracked.settled reset
  obtain ⟨same, ends, kept⟩ := final ended
  dsimp only at same ends kept ⊢
  rw [same]
  exact ⟨ends, kept.trans empty, covered⟩

end

theorem emitLoop_empty {fuel nextOff reached : Nat} {out result : List UInt8} (empty : send.data = [])
    (emitted : emitLoop fuel send outLen nextOff out = some (next, reached, result)) : next = send := by
  cases fuel with
  | zero => cases emitted
  | succ fuel =>
    rw [emitLoop] at emitted
    split at emitted
    · cases emitted
      rfl
    rw [if_pos (.inl (by rw [empty]; rfl))] at emitted
    cases emitted
    rfl

theorem Tracked.emit (tracked : send.Tracked) {out : List UInt8} {fin : Bool}
    (emitted : send.emit outLen = some (next, out, fin)) :
    next.Tracked ∧ send.offFront + out.length ≤ next.emitOff := by
  have placed := (emit_kept emitted).placed tracked.placed
  have data : send.data = [] → next.data = [] := by
    intro empty
    obtain ⟨⟨moved, reached, sent⟩, looped, emitted⟩ := Option.bind_eq_some_iff.mp emitted
    cases emitted
    rw [emitLoop_empty empty looped]
    exact empty
  obtain ⟨⟨_, pos, len, rfl⟩, _⟩ := emit_frame emitted
  exact ⟨tracked.congr placed data rfl (Nat.le_max_left _ _) rfl rfl rfl rfl rfl, Nat.le_max_right _ _⟩

theorem Tracked.retransmit (tracked : send.Tracked) (retransmitted : send.retransmit off len = some next) :
    next.Tracked := by
  have placed := (retransmit_kept retransmitted).placed tracked.placed
  have data : send.data = [] → next.data = [] := by
    intro empty
    rw [SendBuf.retransmit, if_pos (by rw [empty]; rfl)] at retransmitted
    cases retransmitted
    exact empty
  obtain ⟨_, pos, len, rfl⟩ := retransmit_frame retransmitted
  exact tracked.congr placed data rfl (Nat.le_refl _) rfl rfl rfl rfl rfl

theorem insert_covered {ranges : RangeSet} (before : send.acked.Bounded (2 ^ 62))
    (small : off + len ≤ 2 ^ 62) (inserted : send.acked.insert off (off + len) = some ranges) :
    ranges.Bounded (2 ^ 62) ∧ ∀ place, Covered ranges.iter place ↔
      (off ≤ place ∧ place < off + len) ∨ Covered send.acked.iter place := by
  obtain ⟨expected, insertion, bounded, iter⟩ := before.insert (Nat.le_refl _) (Nat.le_add_right off len) small
  cases insertion.symm.trans inserted
  refine ⟨bounded, fun place => ?_⟩
  rw [iter]
  exact covered_insertRange (Nat.le_add_right off len) before.separated.proper place

theorem Tracked.ackAndDrop (tracked : send.Tracked) (sent : off + len ≤ send.emitOff)
    (acked : send.ackAndDrop off len = some next) :
    next.Tracked ∧ next.off = send.off ∧ next.emitOff = send.emitOff ∧ ∀ place, Covered next.acked.iter place ↔
        (off ≤ place ∧ place < off + len) ∨ Covered send.acked.iter place := by
  have emitOff_le := tracked.placed.emitOff_le
  have off_lt := tracked.off_lt
  have placed := (ackAndDrop_kept acked).placed tracked.placed
  obtain ⟨marked, acking, dropping⟩ := Option.bind_eq_some_iff.mp acked
  obtain ⟨ranges, inserted, same⟩ := Option.bind_eq_some_iff.mp acking
  cases same
  obtain ⟨bounded, covered⟩ := insert_covered tracked.acked (by omega) inserted
  have frame : ∃ dropped pos, next = { send with data := dropped, pos := pos, acked := ranges } ∧
      (send.data = [] → dropped = []) := by
    dsimp only at dropping
    split at dropping
    · cases dropping
      exact ⟨_, _, rfl, id⟩
    split at dropping
    · cases dropping
      exact ⟨_, _, rfl, id⟩
    · cases dropping
      refine ⟨_, _, rfl, fun empty => ?_⟩
      rw [empty, List.drop_nil]
  obtain ⟨data, pos, rfl, kept⟩ := frame
  refine ⟨{ placed := placed, off_le := tracked.off_le, small := tracked.small
            ends := tracked.ends, acked := bounded, ackedWithin := ?_, ackedSent := ?_, settled :=
              ?_ }, rfl, rfl, covered⟩
  · intro place marked
    rcases (covered place).mp marked with ⟨lower, upper⟩ | before
    · exact Nat.lt_of_lt_of_le upper (Nat.le_trans sent emitOff_le)
    · exact tracked.ackedWithin place before
  · intro running place marked
    rcases (covered place).mp marked with ⟨lower, upper⟩ | before
    · exact Nat.lt_of_lt_of_le upper sent
    · exact tracked.ackedSent running place before
  · intro reset
    obtain ⟨final, empty, all⟩ := tracked.settled reset
    exact ⟨final, kept empty, fun place below => (covered place).mpr (.inr (all place below))⟩

/-- What a reset leaves: everything below the final offset is settled, and what was never
sent is gone. -/
structure Settled (send : SendBuf) (unsent : Nat) (next : SendBuf) : Prop where
  tracked : next.Tracked
  off : next.off = max send.offFront send.emitOff
  emitOff : next.emitOff = send.emitOff
  unsent_eq : unsent = send.off - next.off
  reset : next.WasReset

theorem reset_covered (reset : send.reset = some (next, finalSize, unsent)) (before : send.acked.Bounded (2 ^ 62))
    (acked_lt : ∀ place, Covered send.acked.iter place → place < max send.offFront send.emitOff)
    (bound : max send.offFront send.emitOff ≤ 2 ^ 62) : (∃ acked, next = { send with
        finOff := some (max send.offFront send.emitOff), data := [], pos := 0, len := 0
        off := max send.offFront send.emitOff, acked }) ∧ next.acked.Bounded (2 ^ 62) ∧
      (∀ place, Covered next.acked.iter place ↔ place < max send.offFront send.emitOff) ∧
      unsent = send.off - max send.offFront send.emitOff := by
  obtain ⟨marked, acking, reset⟩ := Option.bind_eq_some_iff.mp reset
  obtain ⟨ranges, inserted, same⟩ := Option.bind_eq_some_iff.mp acking
  cases same
  cases reset
  obtain ⟨bounded, covered⟩ := insert_covered before (by omega) inserted
  refine ⟨⟨ranges, rfl⟩, bounded, fun place => ?_, rfl⟩
  dsimp only
  rw [covered place]
  constructor
  · rintro (⟨_, upper⟩ | before)
    · omega
    · exact acked_lt place before
  · intro below
    exact .inl ⟨Nat.zero_le _, by omega⟩

theorem Tracked.stop (tracked : send.Tracked) {errorCode : Nat}
    (stopped : send.stop errorCode = some (next, .ok (finalSize, unsent))) : Settled send unsent next := by
  rw [SendBuf.stop] at stopped
  split at stopped
  · cases stopped
  obtain ⟨⟨cut, size, rest⟩, reset, stopped⟩ := Option.bind_eq_some_iff.mp stopped
  cases stopped
  have placed := (tracked.placed.reset reset).1.placed
  obtain ⟨⟨acked, rfl⟩, bounded, covered, given⟩ := reset_covered reset tracked.acked
    (fun _ => tracked.acked_lt_cut) (Nat.le_trans tracked.cut_le (Nat.le_of_lt tracked.off_lt))
  have marked : { send with error := some errorCode }.WasReset := .inl rfl
  have ended : { send with finOff := some (max send.offFront send.emitOff) }.EndsWithin
      (max send.offFront send.emitOff) := fun _ known => Nat.le_of_eq (Option.some.inj known)
  refine ⟨⟨⟨placed.ordered, placed.within, placed.emitOff_le⟩,
    Nat.le_trans tracked.cut_le tracked.off_le, tracked.small, ended, bounded,
    fun place => (covered place).mp, fun running => absurd marked running,
    fun _ => ⟨rfl, rfl, fun place => (covered place).mpr⟩⟩, rfl, rfl, given, marked⟩

theorem Tracked.shutdown (tracked : send.Tracked)
    (shut : send.shutdown = some (next, .ok (finalSize, unsent))) : Settled send unsent next := by
  rw [SendBuf.shutdown] at shut
  split at shut
  · cases shut
  obtain ⟨⟨cut, size, rest⟩, reset, shut⟩ := Option.bind_eq_some_iff.mp shut
  cases shut
  have before : { send with isShutdown := true }.Placed :=
    ⟨tracked.placed.ordered, tracked.placed.within, tracked.placed.emitOff_le⟩
  have placed := (before.reset reset).1.placed
  have acked_lt : ∀ place, Covered send.acked.iter place → place < max send.offFront send.emitOff :=
    fun _ => tracked.acked_lt_cut
  have bound := Nat.le_trans tracked.cut_le (Nat.le_of_lt tracked.off_lt)
  obtain ⟨⟨acked, rfl⟩, bounded, covered, given⟩ := reset_covered reset tracked.acked acked_lt bound
  have marked : { send with isShutdown := true }.WasReset := .inr rfl
  have ended : { send with finOff := some (max send.offFront send.emitOff) }.EndsWithin
      (max send.offFront send.emitOff) := fun _ known => Nat.le_of_eq (Option.some.inj known)
  refine ⟨⟨placed, Nat.le_trans tracked.cut_le tracked.off_le, tracked.small, ended, bounded,
    fun place => (covered place).mp, fun running => absurd marked running,
    fun _ => ⟨rfl, rfl, fun place => (covered place).mpr⟩⟩, rfl, rfl, given, marked⟩

theorem Tracked.covered_of_complete (tracked : send.Tracked) (complete : send.isComplete = true)
    (below : place < send.off) : Covered send.acked.iter place := by
  rw [isComplete] at complete
  split at complete
  · rename_i finOff known
    rw [RangeSet.eqRange_iter complete]
    exact ⟨(0, finOff), List.mem_singleton_self _, Nat.zero_le _,
      Nat.lt_of_lt_of_le below (tracked.ends finOff known)⟩
  · cases complete

end Tracked

end Quiche.SendBuf
