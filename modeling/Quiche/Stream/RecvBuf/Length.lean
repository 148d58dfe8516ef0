import Quiche.Stream.RecvBuf.Write

namespace Quiche.RecvBuf

open Data

/-! How far the received length moves. The statements are about calls that return, and
hold for a buffer that is being drained as well. -/

/-- What is stored and what was read is within the length, which a known final size equals. -/
structure Spans (recv : RecvBuf) : Prop where
  received : ∀ entry ∈ recv.data.entries, entry.2.maxOff ≤ recv.len
  off_le : recv.off ≤ recv.len
  final : ∀ finOff ∈ recv.finOff, finOff = recv.len

theorem new_spans (maxData maxWindow : Nat) : (RecvBuf.new maxData maxWindow).Spans where
  received := by simp [RecvBuf.new, OrderedMap.empty]
  off_le := Nat.le_refl 0
  final := by simp [RecvBuf.new]

variable {recv next : RecvBuf} {buf : RangeBuf}

theorem trim_bound {chunks tmpBufs rest : List RangeBuf} {kept : Option RangeBuf} {bound : Nat}
    (trimmed : trim chunks buf tmpBufs = some (kept, rest)) (below : ∀ chunk ∈ chunks, chunk.maxOff ≤ bound) :
    ((∀ piece ∈ kept, piece.maxOff ≤ bound) ∧ ∀ piece ∈ rest, piece.maxOff ≤ bound) ↔
      buf.maxOff ≤ bound ∧ ∀ piece ∈ tmpBufs, piece.maxOff ≤ bound := by
  induction chunks generalizing buf tmpBufs with
  | nil =>
    cases trimmed
    simp
  | cons chunk chunks ih =>
    have later : ∀ other ∈ chunks, other.maxOff ≤ bound :=
      fun other member => below other (List.mem_cons_of_mem _ member)
    rw [trim] at trimmed
    dsimp only at trimmed
    split at trimmed
    · cases trimmed
      simp
    split at trimmed
    · rename_i _ contained
      cases trimmed
      have small := below chunk List.mem_cons_self
      simp [Nat.le_trans contained.2 small]
    have tail : ∀ cut : RangeBuf, cut.maxOff = buf.maxOff → (if buf.off < chunk.off ∧ cut.maxOff > chunk.off then do
          let pieces ← cut.splitOff (chunk.off - buf.off)
          trim chunks pieces.1 (tmpBufs ++ [pieces.2])
        else trim chunks cut tmpBufs) = some (kept, rest) →
        (((∀ piece ∈ kept, piece.maxOff ≤ bound) ∧ ∀ piece ∈ rest, piece.maxOff ≤ bound) ↔
          buf.maxOff ≤ bound ∧ ∀ piece ∈ tmpBufs, piece.maxOff ≤ bound) := by
      intro cut same ended
      split at ended
      · obtain ⟨⟨front, back⟩, splitted, looped⟩ := Option.bind_eq_some_iff.mp ended
        obtain ⟨small, ends⟩ := RangeBuf.splitOff_maxOff splitted
        rw [ih looped later, ← same]
        simp only [List.mem_append, List.mem_singleton, or_imp, forall_and, forall_eq, ends]
        constructor
        · rintro ⟨_, earlier, last⟩
          exact ⟨last, earlier⟩
        · rintro ⟨last, earlier⟩
          exact ⟨Nat.le_trans small last, earlier, last⟩
      · rw [ih ended later, same]
    split at trimmed
    · obtain ⟨cut, started, ended⟩ := Option.bind_eq_some_iff.mp trimmed
      obtain ⟨⟨left, right⟩, splitted, rfl⟩ := Option.map_eq_some_iff.mp started
      exact tail right (RangeBuf.splitOff_maxOff splitted).2 ended
    · exact tail buf rfl trimmed

theorem writeLoop_len {fuel : Nat} {bufs : List RangeBuf} (looped : writeLoop fuel recv bufs = some next)
    (received : ∀ entry ∈ recv.data.entries, entry.2.maxOff ≤ recv.len) :
    (∀ entry ∈ next.data.entries, entry.2.maxOff ≤ next.len) ∧
      (∀ bound, next.len ≤ bound ↔ recv.len ≤ bound ∧ ∀ buf ∈ bufs, buf.maxOff ≤ bound) ∧
      (recv.drain = true → next.data = recv.data) ∧ next = { recv with len := next.len, data := next.data } := by
  induction fuel generalizing recv bufs with
  | zero =>
    cases bufs with
    | nil =>
      cases looped
      exact ⟨received, by simp, fun _ => rfl, rfl⟩
    | cons buf rest => contradiction
  | succ fuel ih =>
    cases bufs with
    | nil =>
      cases looped
      exact ⟨received, by simp, fun _ => rfl, rfl⟩
    | cons buf rest =>
      rw [writeLoop] at looped
      obtain ⟨unread, discarded, looped⟩ := Option.bind_eq_some_iff.mp looped
      obtain ⟨⟨kept, queue⟩, overlapped, looped⟩ := Option.bind_eq_some_iff.mp looped
      have same : unread.maxOff = buf.maxOff := by
        rw [discardRead] at discarded
        split at discarded
        · obtain ⟨⟨left, right⟩, splitted, rfl⟩ := Option.map_eq_some_iff.mp discarded
          exact (RangeBuf.splitOff_maxOff splitted).2
        · cases discarded
          rfl
      have parts : ∀ bound, recv.len ≤ bound →
          (((∀ piece ∈ kept, piece.maxOff ≤ bound) ∧ ∀ piece ∈ queue, piece.maxOff ≤ bound) ↔
            buf.maxOff ≤ bound ∧ ∀ piece ∈ rest, piece.maxOff ≤ bound) := by
        intro bound large
        rw [handleOverlap] at overlapped
        split at overlapped
        · rw [trim_bound overlapped, same]
          intro chunk member
          obtain ⟨entry, listed, rfl⟩ := List.mem_map.mp member
          exact Nat.le_trans (received entry (OrderedMap.mem_rangeFrom.mp listed).1) large
        · cases overlapped
          simp [same]
      cases kept with
      | none =>
        obtain ⟨stored, length, drained, frame⟩ := ih looped received
        refine ⟨stored, fun bound => ?_, drained, frame⟩
        rw [length, List.forall_mem_cons]
        refine and_congr_right fun large => ?_
        rw [← parts bound large]
        simp
      | some piece =>
        -- A buffer that is drained counts the piece without storing it.
        obtain ⟨middle, resumed, larger, within, kept, same⟩ : ∃ middle, writeLoop fuel middle queue = some next ∧
            middle.len = max recv.len piece.maxOff ∧ (∀ entry ∈ middle.data.entries, entry.2.maxOff ≤ middle.len) ∧
            (recv.drain = true → middle.data = recv.data) ∧
            middle = { recv with len := middle.len, data := middle.data } := by
          refine ⟨_, looped, ?_⟩
          dsimp only
          split
          · refine ⟨rfl, fun entry member => ?_, fun _ => rfl, rfl⟩
            exact Nat.le_trans (received entry member) (Nat.le_max_left _ _)
          · rename_i storing
            refine ⟨rfl, fun entry member => ?_, fun draining => absurd draining storing, rfl⟩
            rcases OrderedMap.mem_insert.mp member with rfl | ⟨_, member⟩
            · exact Nat.le_max_right _ _
            · exact Nat.le_trans (received entry member) (Nat.le_max_left _ _)
        obtain ⟨stored, length, drained, frame⟩ := ih resumed within
        refine ⟨stored, fun bound => ?_, fun draining => ?_, ?_⟩
        · rw [length, larger, Nat.max_le, and_assoc, List.forall_mem_cons]
          refine and_congr_right fun large => ?_
          rw [← parts bound large]
          simp
        · rw [drained (by rw [same]; exact draining), kept draining]
        · rw [frame, same]

/-- The buffer was written, and the length is the largest end so far. -/
structure Lengthened (recv : RecvBuf) (buf : RangeBuf) (next : RecvBuf) : Prop where
  received : ∀ entry ∈ next.data.entries, entry.2.maxOff ≤ next.len
  final : ∀ finOff ∈ next.finOff, finOff = next.len
  len : next.len = if buf.isEmpty ∧ buf.fin = false then recv.len else max recv.len buf.maxOff
  off : next.off = recv.off
  error : next.error = recv.error
  drain : next.drain = recv.drain
  flowControl : next.flowControl = recv.flowControl
  finOff : buf.fin ∨ recv.finOff.isSome → next.finOff.isSome
  known : recv.finOff.isSome → buf.maxOff ≤ recv.len
  drained : recv.drain = true → next.data = recv.data

theorem Admitted.final_len (admitted : Admitted recv buf) (final : ∀ finOff ∈ recv.finOff, finOff = recv.len) :
    ∀ finOff ∈ (recv.mark buf).finOff, finOff = max recv.len buf.maxOff := by
  intro finOff known
  rw [Option.mem_def, mark_finOff] at known
  split at known
  · rename_i isFin
    cases known
    exact (Nat.max_eq_right (admitted.received isFin)).symm
  · rw [final finOff known, Nat.max_eq_left]
    exact final finOff known ▸ admitted.within finOff known

theorem mark_finOff_isSome (known : buf.fin ∨ recv.finOff.isSome) : (recv.mark buf).finOff.isSome := by
  rw [mark_finOff]
  split
  · rfl
  · rename_i notFin
    exact known.resolve_left notFin

theorem write_length (received : ∀ entry ∈ recv.data.entries, entry.2.maxOff ≤ recv.len)
    (final : ∀ finOff ∈ recv.finOff, finOff = recv.len) (read : buf.isEmpty = false → recv.off ≤ recv.len)
    (written : recv.write buf = some (next, .ok ())) : Lengthened recv buf next := by
  by_cases bound : buf.maxOff < 2 ^ 64
  swap
  · rw [write, if_pos (Nat.not_lt.mp bound)] at written
    contradiction
  rcases write_admission recv buf bound with ⟨error, refused⟩ | ⟨admitted, accepted⟩
  · cases refused.symm.trans written
  have finalLen := admitted.final_len final
  have within : recv.finOff.isSome → buf.maxOff ≤ recv.len := by
    intro known
    obtain ⟨size, same⟩ := Option.isSome_iff_exists.mp known
    exact final size same ▸ admitted.within size same
  rw [accepted] at written
  split at written
  · rename_i known
    cases written
    refine ⟨received, final, ?_, rfl, rfl, rfl, rfl, fun _ => known.1, within, fun _ => rfl⟩
    split
    · rfl
    · exact (Nat.max_eq_left (within known.1)).symm
  split at written
  · rename_i _ nothing
    cases written
    have unmarked : recv.mark buf = recv := if_neg nothing.1
    rw [unmarked]
    refine ⟨received, final, ?_, rfl, rfl, rfl, rfl, fun known => known.resolve_left nothing.1, within,
      fun _ => rfl⟩
    rw [if_pos ⟨nothing.2, by simpa using nothing.1⟩]
  rename_i storable
  have moves : ¬ (buf.isEmpty ∧ buf.fin = false) := fun both => storable ⟨by simp [both.2], both.1⟩
  split at written
  · rename_i duplicate
    cases written
    rw [mark_off] at duplicate
    have same : max recv.len buf.maxOff = recv.len :=
      Nat.max_eq_left (Nat.le_trans duplicate.1 (read (by simpa using duplicate.2)))
    rw [same] at finalLen
    refine ⟨?_, ?_, ?_, mark_off .., mark_error .., mark_drain .., mark_flowControl ..,
      mark_finOff_isSome, within, fun _ => mark_data ..⟩
    · simpa using received
    · simpa using finalLen
    · rw [if_neg moves, same, mark_len]
  · obtain ⟨looped, finished, same⟩ := Option.map_eq_some_iff.mp written
    cases same
    obtain ⟨stored, length, drained, frame⟩ := writeLoop_len finished (by simpa using received)
    have len : next.len = max recv.len buf.maxOff := by
      apply eq_of_forall_ge_iff
      intro limit
      rw [length, Nat.max_le, mark_len, List.forall_mem_singleton]
    have finOff : next.finOff = (recv.mark buf).finOff := by rw [frame]
    refine ⟨stored, ?_, ?_, ?_, ?_, ?_, ?_, ?_, within, ?_⟩
    · rw [finOff, len]
      exact finalLen
    · rw [if_neg moves, len]
    · rw [frame, mark_off]
    · rw [frame, mark_error]
    · rw [frame, mark_drain]
    · rw [frame, mark_flowControl]
    · intro known
      rw [finOff]
      exact mark_finOff_isSome known
    · simpa using drained

theorem Spans.write (spans : recv.Spans) (written : recv.write buf = some (next, .ok ())) :
    next.Spans ∧ Lengthened recv buf next := by
  have lengthened := write_length spans.received spans.final (fun _ => spans.off_le) written
  refine ⟨⟨lengthened.received, ?_, lengthened.final⟩, lengthened⟩
  rw [lengthened.off, lengthened.len]
  split
  · exact spans.off_le
  · exact Nat.le_trans spans.off_le (Nat.le_max_left _ _)

/-- The stream was reset, and the bytes up to the final size are charged. -/
structure WasReset (recv : RecvBuf) (finalSize delta : Nat) (next : RecvBuf) : Prop where
  spans : next.Spans
  charged : recv.len + delta = next.len
  error : next.error.isSome
  finOff : next.finOff.isSome
  drain : next.drain = recv.drain
  first : recv.error = none → next.off = finalSize ∧ next.len = finalSize
  drained : recv.error = none → recv.drain = true → next.data = .empty
  again : recv.error.isSome → next = recv

theorem Spans.reset {errorCode finalSize delta : Nat} (spans : recv.Spans)
    (known : recv.error.isSome → recv.finOff.isSome) (reset : recv.reset errorCode finalSize = some (next, .ok delta)) :
    WasReset recv finalSize delta next := by
  rw [RecvBuf.reset] at reset
  split at reset
  · cases reset
  rename_i same
  split at reset
  · cases reset
  rename_i large
  dsimp only at reset
  split at reset
  · rename_i wasReset
    cases reset
    obtain ⟨finOff, isFinal⟩ := Option.isSome_iff_exists.mp (known wasReset)
    have size : finalSize = recv.len := by
      rw [isFinal] at same
      rw [← spans.final finOff isFinal]
      exact Eq.symm (by simpa using same)
    have notFirst : recv.error ≠ none := Option.isSome_iff_ne_none.mp wasReset
    exact ⟨spans, by omega, wasReset, known wasReset, rfl, fun alive => absurd alive notFirst,
      fun alive => absurd alive notFirst, fun _ => rfl⟩
  · rename_i alive
    obtain ⟨⟨written, result⟩, wrote, outcome⟩ := Option.bind_eq_some_iff.mp reset
    cases result with
    | error error => cases outcome
    | ok _ =>
      cases outcome
      have lengthened :
          Lengthened { recv with error := some errorCode, off := finalSize, data := .empty }
            (.fromBytes [] finalSize true) written := write_length (by simp [OrderedMap.empty]) spans.final
          (fun nonempty => by simp at nonempty) wrote
      have off : written.off = finalSize := lengthened.off
      have len : written.len = finalSize := by
        rw [lengthened.len, if_neg (by simp)]
        exact Nat.max_eq_right (Nat.not_lt.mp large)
      have total : recv.len + (finalSize - recv.len) = written.len := by omega
      refine ⟨⟨lengthened.received, Nat.le_of_eq (off.trans len.symm), lengthened.final⟩, total, ?_,
        lengthened.finOff (.inl rfl), lengthened.drain, fun _ => ⟨off, len⟩,
        fun _ draining => lengthened.drained draining, fun wasReset => absurd wasReset alive⟩
      rw [lengthened.error]
      rfl

/-- What reading does to the offset and leaves of the rest. -/
structure Advanced (recv : RecvBuf) (out : List UInt8) (next : RecvBuf) : Prop where
  spans : next.Spans
  off : next.off = recv.off + out.length
  len : next.len = recv.len
  finOff : next.finOff = recv.finOff
  error : next.error = recv.error
  drain : next.drain = recv.drain

theorem Advanced.refl (spans : recv.Spans) : Advanced recv [] recv := ⟨spans, rfl, rfl, rfl, rfl, rfl⟩

theorem Advanced.trans {middle : RecvBuf} {first second : List UInt8}
    (earlier : Advanced recv first middle) (later : Advanced middle second next) :
    Advanced recv (first ++ second) next where
  spans := later.spans
  off := by rw [later.off, earlier.off, List.length_append, Nat.add_assoc]
  len := later.len.trans earlier.len
  finOff := later.finOff.trans earlier.finOff
  error := later.error.trans earlier.error
  drain := later.drain.trans earlier.drain

section Read

variable {key count : Nat}

theorem Spans.read (spans : recv.Spans) (first : recv.data.first? = some (key, buf))
    (here : buf.off = recv.off) (bound : count ≤ buf.len) {data : OrderedMap Nat RangeBuf}
    (kept : ∀ entry ∈ data.entries, ∃ old ∈ recv.data.entries, entry.2.maxOff = old.2.maxOff) :
    Advanced recv (buf.bytes.take count) { recv with data, off := recv.off + count } := by
  have member : (key, buf) ∈ recv.data.entries := List.mem_of_mem_head? first
  have ends : buf.maxOff ≤ recv.len := spans.received _ member
  refine ⟨⟨?_, ?_, spans.final⟩, ?_, rfl, rfl, rfl, rfl⟩
  · intro entry stored
    obtain ⟨old, listed, same⟩ := kept entry stored
    rw [same]
    exact spans.received old listed
  · rw [RangeBuf.maxOff] at ends
    dsimp only
    omega
  · rw [List.length_take, RangeBuf.bytes_length, Nat.min_eq_left bound]

theorem emitLoop_advances {fuel cap : Nat} {out bytes : List UInt8} (spans : recv.Spans)
    (looped : emitLoop fuel recv cap out = some (next, bytes)) :
    ∃ read, bytes = out ++ read ∧ Advanced recv read next := by
  induction fuel generalizing recv cap out with
  | zero => contradiction
  | succ fuel ih =>
    rw [emitLoop] at looped
    split at looped
    swap
    · cases looped
      exact ⟨[], (List.append_nil _).symm, .refl spans⟩
    rename_i continues
    split at looped
    · cases looped
      exact ⟨[], (List.append_nil _).symm, .refl spans⟩
    rename_i key buf first
    have here : buf.off = recv.off := by
      have isReady := continues.2
      rw [ready, first] at isReady
      exact eq_of_beq isReady
    obtain ⟨off, added, looped⟩ := Option.bind_eq_some_iff.mp looped
    have moved := addU64_spec added
    subst moved
    have bound : min buf.len cap ≤ buf.len := Nat.min_le_left _ _
    dsimp only at looped
    split at looped
    · cases looped
      refine ⟨_, rfl, spans.read first here bound ?_⟩
      intro entry member
      rcases OrderedMap.of_mem_setFirst member with same | stored
      · refine ⟨(key, buf), List.mem_of_mem_head? first, ?_⟩
        rw [same, RangeBuf.consume_maxOff]
      · exact ⟨entry, stored, rfl⟩
    · have read : Advanced recv (buf.bytes.take (min buf.len cap))
          { recv with data := recv.data.popFirst, off := recv.off + min buf.len cap } :=
        spans.read first here bound fun entry member => ⟨entry, List.mem_of_mem_tail member, rfl⟩
      obtain ⟨rest, all, advanced⟩ := ih read.spans looped
      refine ⟨_, ?_, read.trans advanced⟩
      rw [all, List.append_assoc]

end Read

/-- The bytes that a call returned. -/
def output : Except Error (List UInt8 × Bool) → List UInt8
  | .ok (out, _) => out
  | .error _ => []

theorem Spans.emit {cap : Nat} {result : Except Error (List UInt8 × Bool)} (spans : recv.Spans)
    (emitted : recv.emit cap = some (next, result)) :
    Advanced recv (output result) next ∧ (recv.error.isSome → output result = []) := by
  rw [RecvBuf.emit] at emitted
  split at emitted
  · cases emitted
    exact ⟨.refl spans, fun _ => rfl⟩
  split at emitted
  · cases emitted
    exact ⟨⟨⟨by simp [OrderedMap.empty], spans.off_le, spans.final⟩, rfl, rfl, rfl, rfl, rfl⟩, fun _ => rfl⟩
  · rename_i alive
    obtain ⟨⟨middle, out⟩, looped, emitted⟩ := Option.bind_eq_some_iff.mp emitted
    obtain ⟨flowControl, _, emitted⟩ := Option.bind_eq_some_iff.mp emitted
    cases emitted
    obtain ⟨read, all, advanced⟩ := emitLoop_advances spans looped
    rw [List.nil_append] at all
    subst all
    refine ⟨⟨⟨advanced.spans.received, advanced.spans.off_le, advanced.spans.final⟩, advanced.off,
      advanced.len, advanced.finOff, advanced.error, advanced.drain⟩, fun reset => ?_⟩
    rw [alive] at reset
    cases reset

theorem Spans.shutdown (spans : recv.Spans) (shut : recv.shutdown = (next, .ok ())) :
    next.Spans ∧ recv.drain = false ∧ next = { recv with drain := true, data := .empty, off := recv.len } := by
  rw [RecvBuf.shutdown] at shut
  split at shut
  · cases shut
  · rename_i open_
    cases shut
    refine ⟨⟨by simp [OrderedMap.empty], Nat.le_refl _, spans.final⟩, ?_, rfl⟩
    exact Bool.eq_false_iff.mpr open_

end Quiche.RecvBuf
