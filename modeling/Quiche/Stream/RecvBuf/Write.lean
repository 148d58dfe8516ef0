import Quiche.Stream.RecvBuf.Trim

namespace Quiche.RecvBuf

open Data

/-- What is stored lies apart, keyed by its ends, within the received stretch and the limits. -/
structure Valid (recv : RecvBuf) : Prop where
  keyed : ∀ entry ∈ recv.data.entries, entry.1 = entry.2.maxOff
  apart : ∀ first ∈ recv.data.entries, ∀ second ∈ recv.data.entries,
    first.1 < second.1 → first.2.maxOff ≤ second.2.off
  unread : ∀ entry ∈ recv.data.entries, recv.off ≤ entry.2.off
  received : ∀ entry ∈ recv.data.entries, entry.2.maxOff ≤ recv.len
  empty_fin : ∀ entry ∈ recv.data.entries, entry.2.off = entry.2.maxOff → recv.finOff = some entry.2.off
  off_le_len : recv.off ≤ recv.len
  len_le_fin : ∀ final ∈ recv.finOff, recv.len ≤ final
  len_le_maxData : recv.len ≤ recv.maxData
  maxData_lt : recv.maxData < 2 ^ 64

/-- The byte is stored at the place. -/
def Stored (recv : RecvBuf) (index : Nat) (byte : UInt8) : Prop :=
  ∃ entry ∈ recv.data.entries, entry.2.byteAt index = some byte

/-- Something that is stored ends at the place. -/
def EndsAt (recv : RecvBuf) (place : Nat) : Prop := ∃ entry ∈ recv.data.entries, entry.2.maxOff = place

variable {recv : RecvBuf}

theorem Valid.chunks_apart (valid : recv.Valid) :
    recv.data.entries.Pairwise fun first second => first.2.maxOff ≤ second.2.off :=
  recv.data.ordered.imp_of_mem fun {first second} inFirst inSecond before =>
    valid.apart first inFirst second inSecond before

theorem Valid.rangeFrom_apart (valid : recv.Valid) (key : Nat) :
    ((recv.data.rangeFrom key).map (·.2)).Pairwise fun left right => left.maxOff ≤ right.off :=
  List.pairwise_map.mpr (valid.chunks_apart.filter _)

theorem covered_iff_stored {index : Nat} :
    (∃ entry ∈ recv.data.entries, entry.2.Covers index) ↔ ∃ byte, recv.Stored index byte := by
  constructor
  · intro holder
    obtain ⟨entry, member, covers⟩ := holder
    obtain ⟨byte, found⟩ := covers.byteAt_exists
    exact ⟨byte, entry, member, found⟩
  · intro holder
    obtain ⟨byte, entry, member, found⟩ := holder
    exact ⟨entry, member, RangeBuf.covers_of_byteAt found⟩

/-- The piece can be stored beside the others. -/
structure Fits (recv : RecvBuf) (piece : RangeBuf) : Prop where
  unread : recv.off ≤ piece.off
  fits : ∀ final ∈ recv.finOff, piece.maxOff ≤ final
  limit : piece.maxOff ≤ recv.maxData
  empty_fin : piece.off = piece.maxOff → recv.finOff = some piece.off
  apart : ∀ entry ∈ recv.data.entries, piece.maxOff ≤ entry.2.off ∨ entry.2.maxOff ≤ piece.off
  notWithin : piece.off = piece.maxOff → ∀ entry ∈ recv.data.entries,
    ¬ (entry.2.off ≤ piece.off ∧ piece.maxOff ≤ entry.2.maxOff)

def store (recv : RecvBuf) (piece : RangeBuf) : RecvBuf :=
  { recv with
    len := max recv.len piece.maxOff
    data := recv.data.insert piece.maxOff piece }

variable {piece : RangeBuf}

theorem mem_store {entry : Nat × RangeBuf} : entry ∈ (recv.store piece).data.entries ↔
      entry = (piece.maxOff, piece) ∨ (entry.1 ≠ piece.maxOff ∧ entry ∈ recv.data.entries) := OrderedMap.mem_insert

section

variable (fits : recv.Fits piece) (valid : recv.Valid)

include fits valid

theorem Fits.replaced_empty
    {entry : Nat × RangeBuf} (member : entry ∈ recv.data.entries) (same : entry.1 = piece.maxOff) :
    entry.2.off = entry.2.maxOff := by
  have key := valid.keyed entry member
  have order := entry.2.off_le_maxOff
  have pieceOrder := piece.off_le_maxOff
  cases fits.apart entry member with
  | inl before => omega
  | inr behind =>
    have empty : piece.off = piece.maxOff := by omega
    exact absurd ⟨by omega, by omega⟩ (fits.notWithin empty entry member)

theorem Fits.store_valid : (recv.store piece).Valid := by
  have pieceOrder := piece.off_le_maxOff
  constructor
  · intro entry member
    cases mem_store.mp member with
    | inl same =>
      subst same
      rfl
    | inr remains =>
      obtain ⟨_, member⟩ := remains
      exact valid.keyed entry member
  · intro first inFirst second inSecond before
    rcases mem_store.mp inFirst with rfl | ⟨_, inFirst⟩ <;>
      rcases mem_store.mp inSecond with rfl | ⟨_, inSecond⟩
    · exact absurd before (Nat.lt_irrefl _)
    · have key := valid.keyed second inSecond
      cases fits.apart second inSecond with
      | inl ahead => exact ahead
      | inr behind =>
        simp only at before ⊢
        omega
    · have key := valid.keyed first inFirst
      have order := first.2.off_le_maxOff
      cases fits.apart first inFirst with
      | inl ahead =>
        simp only at before ⊢
        omega
      | inr behind => exact behind
    · exact valid.apart first inFirst second inSecond before
  · intro entry member
    cases mem_store.mp member with
    | inl same =>
      subst same
      exact fits.unread
    | inr remains =>
      obtain ⟨_, member⟩ := remains
      exact valid.unread entry member
  · intro entry member
    cases mem_store.mp member with
    | inl same =>
      subst same
      exact Nat.le_max_right _ _
    | inr remains =>
      obtain ⟨_, member⟩ := remains
      exact Nat.le_trans (valid.received entry member) (Nat.le_max_left _ _)
  · intro entry member empty
    cases mem_store.mp member with
    | inl same =>
      subst same
      exact fits.empty_fin empty
    | inr remains =>
      obtain ⟨_, member⟩ := remains
      exact valid.empty_fin entry member empty
  · exact Nat.le_trans valid.off_le_len (Nat.le_max_left _ _)
  · intro final known
    exact Nat.max_le.mpr ⟨valid.len_le_fin final known, fits.fits final known⟩
  · exact Nat.max_le.mpr ⟨valid.len_le_maxData, fits.limit⟩
  · exact valid.maxData_lt

theorem Fits.store_stored {index : Nat} {byte : UInt8} :
    (recv.store piece).Stored index byte ↔ recv.Stored index byte ∨ piece.byteAt index = some byte := by
  constructor
  · intro holder
    obtain ⟨entry, member, found⟩ := holder
    cases mem_store.mp member with
    | inl same =>
      subst same
      exact .inr found
    | inr remains =>
      obtain ⟨_, member⟩ := remains
      exact .inl ⟨entry, member, found⟩
  · intro either
    cases either with
    | inl holder =>
      obtain ⟨entry, member, found⟩ := holder
      refine ⟨entry, mem_store.mpr (.inr ⟨fun same => ?_, member⟩), found⟩
      have empty := fits.replaced_empty valid member same
      have covers := RangeBuf.covers_of_byteAt found
      have := covers.1
      have := covers.2
      omega
    | inr found => exact ⟨(piece.maxOff, piece), mem_store.mpr (.inl rfl), found⟩

end

theorem store_endsAt (valid : recv.Valid) {place : Nat}
    (ends : recv.EndsAt place ∨ piece.maxOff = place) : (recv.store piece).EndsAt place := by
  by_cases same : piece.maxOff = place
  · exact ⟨_, mem_store.mpr (.inl rfl), same⟩
  · obtain ⟨entry, member, ends⟩ := ends.resolve_right same
    refine ⟨entry, mem_store.mpr (.inr ⟨?_, member⟩), ends⟩
    rw [valid.keyed entry member, ends]
    exact Ne.symm same

/-- A buffer of the work queue, a part of the incoming data `source`. -/
structure Queued (recv : RecvBuf) (source : Nat → Option UInt8) (buf : RangeBuf) : Prop where
  fresh : buf.off = buf.viewOff
  reaches : recv.off < buf.maxOff ∨ (buf.off = buf.maxOff ∧ recv.off ≤ buf.off)
  fits : ∀ final ∈ recv.finOff, buf.maxOff ≤ final
  limit : buf.maxOff ≤ recv.maxData
  empty_fin : buf.off = buf.maxOff → recv.finOff = some buf.off
  bytes : ∀ index, buf.Covers index → buf.byteAt index = source index

/-- The pieces are stored where nothing was. -/
structure Absorbed (recv : RecvBuf) (source : Nat → Option UInt8) (bufs : List RangeBuf) (next : RecvBuf) : Prop where
  valid : next.Valid
  off : next.off = recv.off
  finOff : next.finOff = recv.finOff
  error : next.error = recv.error
  drain : next.drain = recv.drain
  flowControl : next.flowControl = recv.flowControl
  len_le : recv.len ≤ next.len
  stored : ∀ index, recv.off ≤ index → ∀ byte, next.Stored index byte ↔ recv.Stored index byte ∨
      ((∀ other, ¬ recv.Stored index other) ∧ (∃ buf ∈ bufs, buf.Covers index) ∧ source index = some byte)
  ends : ∀ final, recv.finOff = some final → (recv.EndsAt final ∨ ∃ buf ∈ bufs, buf.maxOff = final) → next.EndsAt final

variable {source : Nat → Option UInt8} {buf : RangeBuf} {rest pushed : List RangeBuf}

theorem Queued.congr {next : RecvBuf} (queued : recv.Queued source buf)
    (off : next.off = recv.off) (finOff : next.finOff = recv.finOff)
    (flowControl : next.flowControl = recv.flowControl) : next.Queued source buf where
  fresh := queued.fresh
  reaches := off ▸ queued.reaches
  fits := finOff ▸ queued.fits
  limit := by simpa only [maxData, flowControl] using queued.limit
  empty_fin := finOff ▸ queued.empty_fin
  bytes := queued.bytes

theorem Absorbed.nil (valid : recv.Valid) : Absorbed recv source [] recv where
  valid := valid
  off := rfl
  finOff := rfl
  error := rfl
  drain := rfl
  flowControl := rfl
  len_le := Nat.le_refl _
  stored index _ byte := by simp
  ends final _ ends := by simpa using ends

theorem discardRead_spec (queued : recv.Queued source buf) :
    ∃ part, recv.discardRead buf = some part ∧ Piece buf part ∧ recv.off ≤ part.off ∧ part.maxOff = buf.maxOff ∧
      (part.off = part.maxOff → buf.off = buf.maxOff) ∧
      ∀ index, recv.off ≤ index → buf.Covers index → part.Covers index := by
  by_cases below : recv.offFront > buf.off
  · have reaches : recv.off < buf.maxOff := by
      cases queued.reaches with
      | inl reaches => exact reaches
      | inr earlier =>
        obtain ⟨_, order⟩ := earlier
        exact absurd below (Nat.not_lt.mpr order)
    obtain ⟨front, back, splitted, cut⟩ := splitOff_cut queued.fresh
      (Nat.le_of_lt below) (Nat.le_of_lt reaches)
    refine ⟨back, by rw [discardRead, if_pos below, splitted]; rfl, cut.back_piece, ?_, cut.back_maxOff, ?_, ?_⟩
    · exact Nat.le_of_eq cut.back_off.symm
    · intro empty
      have := cut.back_off
      have := cut.back_maxOff
      simp only [offFront] at *
      omega
    · intro index lower covers
      exact ⟨by rw [cut.back_off]; exact lower, by rw [cut.back_maxOff]; exact covers.2⟩
  · exact ⟨buf, if_neg below, .refl queued.fresh, Nat.not_lt.mp below, rfl, id, fun _ _ covers => covers⟩

theorem handleOverlap_spec (valid : recv.Valid) (fresh : buf.off = buf.viewOff) (tmpBufs : List RangeBuf) :
    ∃ kept pushed, recv.handleOverlap buf tmpBufs = some (kept, tmpBufs ++ pushed) ∧
      Trimmed (recv.data.entries.map (·.2)) buf kept pushed := by
  by_cases overlap : buf.off < recv.maxOff ∨ buf.isEmpty
  · obtain ⟨kept, pushed, trimmed, spec⟩ := trim_spec (valid.rangeFrom_apart buf.off) fresh tmpBufs
    have selected : ∀ chunk ∈ (recv.data.rangeFrom buf.off).map (·.2), chunk ∈ recv.data.entries.map (·.2) := by
      intro chunk member
      obtain ⟨entry, inside, rfl⟩ := List.mem_map.mp member
      exact List.mem_map.mpr ⟨entry, (OrderedMap.mem_rangeFrom.mp inside).1, rfl⟩
    have skipped : ∀ chunk ∈ recv.data.entries.map (·.2),
        chunk ∈ (recv.data.rangeFrom buf.off).map (·.2) ∨ chunk.maxOff < buf.off := by
      intro chunk member
      obtain ⟨entry, inside, rfl⟩ := List.mem_map.mp member
      by_cases lower : buf.off ≤ entry.1
      · exact .inl (List.mem_map.mpr ⟨entry, OrderedMap.mem_rangeFrom.mpr ⟨inside, lower⟩, rfl⟩)
      · exact .inr (by rw [← valid.keyed entry inside]; omega)
    refine ⟨kept, pushed, by rw [handleOverlap, if_pos overlap, trimmed], spec.kept_piece, spec.pushed_piece, ?_, ?_,
      ?_, spec.pushed_nonempty, spec.lighter, ?_⟩
    · intro index covers
      cases spec.covered index covers with
      | inl holder =>
        obtain ⟨chunk, member, inside⟩ := holder
        exact .inl ⟨chunk, selected chunk member, inside⟩
      | inr inside => exact .inr inside
    · intro piece member chunk inside
      cases skipped chunk inside with
      | inl inside => exact spec.apart piece member chunk inside
      | inr before =>
        have := (spec.kept_piece piece member).lower
        exact .inr (by omega)
    · intro piece member empty
      obtain ⟨bufEmpty, notWithin⟩ := spec.kept_empty piece member empty
      refine ⟨bufEmpty, fun chunk inside within => ?_⟩
      cases skipped chunk inside with
      | inl inside => exact notWithin chunk inside within
      | inr before =>
        have := (spec.kept_piece piece member).lower
        have := piece.off_le_maxOff
        omega
    · cases spec.ends with
      | inl holder =>
        obtain ⟨chunk, member, reaches⟩ := holder
        exact .inl ⟨chunk, selected chunk member, reaches⟩
      | inr reaches => exact .inr reaches
  · have beyond : ∀ chunk ∈ recv.data.entries.map (·.2), chunk.maxOff ≤ buf.off := by
      intro chunk member
      obtain ⟨entry, inside, rfl⟩ := List.mem_map.mp member
      have := valid.received entry inside
      simp only [maxOff] at overlap
      omega
    have nonempty : buf.off < buf.maxOff := by
      rw [RangeBuf.isEmpty_iff] at overlap
      have := buf.off_le_maxOff
      omega
    refine ⟨some buf, [], by rw [handleOverlap, if_neg overlap, List.append_nil], ?_, by simp,
      fun index covers => .inr (.inl ⟨buf, rfl, covers⟩), ?_, ?_, by simp,
      by simp only [weight_nil]; omega, .inr (.inl ⟨buf, rfl, rfl⟩)⟩
    · intro piece equal
      cases equal
      exact .refl fresh
    · intro piece equal chunk inside
      cases equal
      exact .inr (beyond chunk inside)
    · intro piece equal empty
      cases equal
      omega

theorem Queued.part {part : RangeBuf} (queued : recv.Queued source buf) (nested : Piece buf part)
    (unread : recv.off ≤ part.off) (empty : part.off = part.maxOff → buf.off = buf.maxOff) :
    recv.Queued source part where
  fresh := nested.fresh
  reaches := by
    have := part.off_le_maxOff
    omega
  fits final known := Nat.le_trans nested.upper (queued.fits final known)
  limit := Nat.le_trans nested.upper queued.limit
  empty_fin sizeUnknown := by
    have bufEmpty := empty sizeUnknown
    have := nested.lower
    have := nested.upper
    rw [queued.empty_fin bufEmpty]
    congr 1
    omega
  bytes index covers := (nested.bytes index covers).trans (queued.bytes index (nested.covers covers))

theorem Queued.fits_piece {kept : Option RangeBuf} (queued : recv.Queued source buf) (unread : recv.off ≤ buf.off)
    (trimmed : Trimmed (recv.data.entries.map (·.2)) buf kept pushed) (keeps : kept = some piece) :
    recv.Fits piece := by
  have nested := trimmed.kept_piece piece keeps
  have inherited := queued.part nested (Nat.le_trans unread nested.lower)
    (fun empty => (trimmed.kept_empty piece keeps empty).1)
  refine ⟨Nat.le_trans unread nested.lower, inherited.fits, inherited.limit, inherited.empty_fin, ?_, ?_⟩
  · intro entry member
    exact trimmed.apart piece keeps entry.2 (List.mem_map_of_mem member)
  · intro empty entry member
    exact (trimmed.kept_empty piece keeps empty).2 entry.2 (List.mem_map_of_mem member)

theorem writeLoop_round (valid : recv.Valid) (open_ : recv.drain = false)
    (queued : recv.Queued source buf) (rest : List RangeBuf) (fuel : Nat) :
    ∃ part next pushed, writeLoop (fuel + 1) recv (buf :: rest) = writeLoop fuel next (rest ++ pushed) ∧
      Absorbed recv source part next ∧
      (∀ piece ∈ pushed, recv.Queued source piece) ∧ weight pushed + 1 ≤ max 1 buf.len ∧
      (∀ piece ∈ part ++ pushed, Piece buf piece) ∧
      (∀ index, recv.off ≤ index → buf.Covers index → (∃ byte, recv.Stored index byte) ∨
        ∃ piece ∈ part ++ pushed, piece.Covers index) ∧ (∀ final, recv.finOff = some final → buf.maxOff = final →
        recv.EndsAt final ∨ ∃ piece ∈ part ++ pushed, piece.maxOff = final) := by
  obtain ⟨part, discarded, nested, unread, partMax, partEmpty, partCovers⟩ := discardRead_spec queued
  have queuedPart := queued.part nested unread partEmpty
  obtain ⟨kept, pushed, selected, trimmed⟩ := handleOverlap_spec valid nested.fresh rest
  have pushedQueued : ∀ piece ∈ pushed, recv.Queued source piece := by
    intro piece member
    have inside := trimmed.pushed_piece piece member
    have nonempty := trimmed.pushed_nonempty piece member
    exact queuedPart.part inside (Nat.le_trans unread inside.lower) (fun empty => by omega)
  have lighter : weight pushed + 1 ≤ max 1 buf.len := by
    have light := trimmed.lighter
    have lower := nested.lower
    simp only [RangeBuf.maxOff] at partMax
    omega
  have covered : ∀ index, recv.off ≤ index → buf.Covers index → (∃ byte, recv.Stored index byte) ∨
      ∃ piece ∈ kept.toList ++ pushed, piece.Covers index := by
    intro index lower covers
    rcases trimmed.covered index (partCovers index lower covers) with
      ⟨chunk, member, inside⟩ | ⟨piece, keeps, inside⟩ | ⟨piece, member, inside⟩
    · obtain ⟨entry, stored, rfl⟩ := List.mem_map.mp member
      exact .inl (covered_iff_stored.mp ⟨entry, stored, inside⟩)
    · exact .inr ⟨piece, by simp [Option.mem_def.mp keeps], inside⟩
    · exact .inr ⟨piece, by simp [member], inside⟩
  have ends : ∀ final, recv.finOff = some final → buf.maxOff = final →
      recv.EndsAt final ∨ ∃ piece ∈ kept.toList ++ pushed, piece.maxOff = final := by
    intro final known same
    rcases trimmed.ends with ⟨chunk, member, reaches⟩ | ⟨piece, keeps, same'⟩ | ⟨piece, member, same'⟩
    · obtain ⟨entry, stored, rfl⟩ := List.mem_map.mp member
      have := valid.received entry stored
      have := valid.len_le_fin final known
      exact .inl ⟨entry, stored, by omega⟩
    · exact .inr ⟨piece, by simp [Option.mem_def.mp keeps], by omega⟩
    · exact .inr ⟨piece, by simp [member], by omega⟩
  have pieces : ∀ piece ∈ kept.toList ++ pushed, Piece buf piece := by
    intro piece member
    cases List.mem_append.mp member with
    | inl keeps => exact nested.trans (trimmed.kept_piece piece (Option.mem_toList.mp keeps))
    | inr member => exact nested.trans (trimmed.pushed_piece piece member)
  cases kept with
  | none =>
    refine ⟨[], recv, pushed, ?_, .nil valid, pushedQueued, lighter, pieces, covered, ends⟩
    simp only [writeLoop, discarded, Option.bind_eq_bind, Option.bind_some, selected]
  | some piece =>
    have fits := queuedPart.fits_piece unread trimmed rfl
    have pieceBytes : ∀ index, piece.Covers index → piece.byteAt index = source index :=
      fun index covers => queued.bytes index
        ((pieces piece (by simp)).covers covers) ▸ (pieces piece (by simp)).bytes index covers
    refine ⟨[piece], recv.store piece, pushed, ?_, ?_, pushedQueued, lighter, pieces, covered, ends⟩
    · simp only [writeLoop, discarded, Option.bind_eq_bind, Option.bind_some, selected, store, open_,
        Bool.false_eq_true, if_false]
    · refine ⟨fits.store_valid valid, rfl, rfl, rfl, rfl, rfl, Nat.le_max_left _ _, ?_, ?_⟩
      · intro index lower byte
        rw [fits.store_stored valid]
        constructor
        · intro either
          cases either with
          | inl stored => exact .inl stored
          | inr found =>
            have covers := RangeBuf.covers_of_byteAt found
            refine .inr ⟨?_, ⟨piece, by simp, covers⟩, (pieceBytes index covers) ▸ found⟩
            intro other holder
            obtain ⟨entry, member, present⟩ := holder
            have inside := RangeBuf.covers_of_byteAt present
            have := fits.apart entry member
            have := inside.1
            have := inside.2
            have := covers.1
            have := covers.2
            omega
        · intro either
          cases either with
          | inl stored => exact .inl stored
          | inr added =>
            obtain ⟨_, ⟨found, member, covers⟩, present⟩ := added
            rw [List.mem_singleton] at member
            subst found
            exact .inr ((pieceBytes index covers).trans present)
      · intro final known either
        cases either with
        | inl ends => exact store_endsAt valid (.inl ends)
        | inr holder =>
          obtain ⟨found, member, ends⟩ := holder
          rw [List.mem_singleton] at member
          subst found
          exact store_endsAt valid (.inr ends)

theorem Absorbed.round {middle final : RecvBuf} {part : List RangeBuf} (first : Absorbed recv source part middle)
    (second : Absorbed middle source (rest ++ pushed) final) (queued : recv.Queued source buf)
    (pieces : ∀ piece ∈ part ++ pushed, Piece buf piece)
    (covered : ∀ index, recv.off ≤ index → buf.Covers index → (∃ byte, recv.Stored index byte) ∨
      ∃ piece ∈ part ++ pushed, piece.Covers index)
    (ends : ∀ final, recv.finOff = some final → buf.maxOff = final →
      recv.EndsAt final ∨ ∃ piece ∈ part ++ pushed, piece.maxOff = final) :
    Absorbed recv source (buf :: rest) final where
  valid := second.valid
  off := second.off.trans first.off
  finOff := second.finOff.trans first.finOff
  error := second.error.trans first.error
  drain := second.drain.trans first.drain
  flowControl := second.flowControl.trans first.flowControl
  len_le := Nat.le_trans first.len_le second.len_le
  stored index lower byte := by
    rw [second.stored index (by rw [first.off]; exact lower), first.stored index lower]
    constructor
    · rintro ((stored | ⟨absent, ⟨piece, member, covers⟩, found⟩) |
        ⟨absent, ⟨piece, member, covers⟩, found⟩)
      · exact .inl stored
      · exact .inr ⟨absent, ⟨buf, by simp, (pieces piece (by simp [member])).covers covers⟩, found⟩
      · refine .inr ⟨fun other stored => ?_, ?_, found⟩
        · exact absent other ((first.stored index lower other).mpr (.inl stored))
        · cases List.mem_append.mp member with
          | inl member => exact ⟨piece, by simp [member], covers⟩
          | inr member => exact ⟨buf, by simp, (pieces piece (by simp [member])).covers covers⟩
    · intro either
      cases either with
      | inl stored => exact .inl (.inl stored)
      | inr added =>
        obtain ⟨absent, ⟨piece, member, covers⟩, found⟩ := added
        by_cases placed : ∃ taken ∈ part, taken.Covers index
        · exact .inl (.inr ⟨absent, placed, found⟩)
        · refine .inr ⟨?_, ?_, found⟩
          · intro other stored
            cases (first.stored index lower other).mp stored with
            | inl stored => exact absent other stored
            | inr stored =>
              obtain ⟨_, taken, _⟩ := stored
              exact placed taken
          · cases List.mem_cons.mp member with
            | inl same =>
              subst same
              cases covered index lower covers with
              | inl remains =>
                obtain ⟨other, stored⟩ := remains
                exact absurd stored (absent other)
              | inr holder =>
                obtain ⟨taken, inside, covers⟩ := holder
                cases List.mem_append.mp inside with
                | inl inside => exact absurd ⟨taken, inside, covers⟩ placed
                | inr inside => exact ⟨taken, by simp [inside], covers⟩
            | inr member => exact ⟨piece, by simp [member], covers⟩
  ends place known reached := by
    have knownMiddle := first.finOff.trans known
    cases reached with
    | inl stored =>
      exact second.ends place knownMiddle (.inl (first.ends place known (.inl stored)))
    | inr holder =>
      obtain ⟨piece, member, same⟩ := holder
      cases List.mem_cons.mp member with
      | inl same =>
        subst same
        cases ends place known same with
        | inl stored =>
          exact second.ends place knownMiddle (.inl (first.ends place known (.inl stored)))
        | inr holder =>
          obtain ⟨taken, inside, same⟩ := holder
          cases List.mem_append.mp inside with
          | inl inside =>
            exact second.ends place knownMiddle
              (.inl (first.ends place known (.inr ⟨taken, inside, same⟩)))
          | inr inside =>
            exact second.ends place knownMiddle (.inr ⟨taken, by simp [inside], same⟩)
      | inr member => exact second.ends place knownMiddle (.inr ⟨piece, by simp [member], same⟩)

theorem writeLoop_spec (fuel : Nat) {bufs : List RangeBuf} (valid : recv.Valid)
    (open_ : recv.drain = false) (queued : ∀ buf ∈ bufs, recv.Queued source buf) (enough : weight bufs ≤ fuel) :
    ∃ next, writeLoop fuel recv bufs = some next ∧ Absorbed recv source bufs next := by
  induction fuel generalizing recv bufs with
  | zero =>
    cases bufs with
    | nil => exact ⟨recv, rfl, .nil valid⟩
    | cons buf rest =>
      simp only [weight_cons] at enough
      omega
  | succ fuel ih =>
    cases bufs with
    | nil => exact ⟨recv, rfl, .nil valid⟩
    | cons buf rest =>
      have queuedBuf := queued buf (by simp)
      obtain ⟨part, middle, pushed, unfolded, first, pushedQueued, lighter, pieces, covered, ends⟩ :=
        writeLoop_round valid open_ queuedBuf rest fuel
      have queuedRest : ∀ piece ∈ rest ++ pushed, middle.Queued source piece := by
        intro piece member
        have queuedPiece : recv.Queued source piece := by
          cases List.mem_append.mp member with
          | inl member => exact queued piece (by simp [member])
          | inr member => exact pushedQueued piece member
        exact queuedPiece.congr first.off first.finOff first.flowControl
      simp only [weight_cons] at enough
      obtain ⟨next, completed, second⟩ := ih first.valid (first.drain.trans open_) queuedRest
        (by simp only [weight_append]; omega)
      exact ⟨next, unfolded.trans completed, first.round second queuedBuf pieces covered ends⟩

/-- What an accepted `write` does: the earlier bytes stay, the final size is
recorded, and its end is kept by a chunk unless the bytes in front of it had all
been read before the final size was known. -/
structure Accepted (recv : RecvBuf) (buf : RangeBuf) (next : RecvBuf) : Prop where
  valid : next.Valid
  off : next.off = recv.off
  error : next.error = recv.error
  drain : next.drain = recv.drain
  flowControl : next.flowControl = recv.flowControl
  len_le : recv.len ≤ next.len
  finOff : next.finOff = if buf.fin then some buf.maxOff else recv.finOff
  finOff_kept : ∀ final, recv.finOff = some final → next.finOff = some final
  stored : ∀ index, recv.off ≤ index → ∀ byte, next.Stored index byte ↔ recv.Stored index byte ∨
      ((∀ other, ¬ recv.Stored index other) ∧ buf.byteAt index = some byte)
  ends : ∀ final, next.finOff = some final →
    (recv.EndsAt final ∨ (recv.finOff = none ∧ (recv.off < buf.maxOff ∨ buf.isEmpty))) → next.EndsAt final

theorem Accepted.refl (valid : recv.Valid) (unchanged : buf.fin → recv.finOff = some buf.maxOff)
    (nothing : ∀ index, recv.off ≤ index → ¬ buf.Covers index) : Accepted recv buf recv where
  valid := valid
  off := rfl
  error := rfl
  drain := rfl
  flowControl := rfl
  len_le := Nat.le_refl _
  finOff := by
    split
    · exact unchanged ‹_›
    · rfl
  finOff_kept _ same := same
  stored index lower byte := by
    simp [RangeBuf.byteAt_eq_none_iff.mpr (nothing index lower)]
  ends final same reached := by
    cases reached with
    | inl ends => exact ends
    | inr learned =>
      obtain ⟨unknown, _⟩ := learned
      rw [unknown] at same
      contradiction

theorem Valid.setFin (valid : recv.Valid) {final : Nat} (large : recv.len ≤ final)
    (same : ∀ known ∈ recv.finOff, known = final) : { recv with finOff := some final }.Valid := by
  refine ⟨valid.keyed, valid.apart, valid.unread, valid.received, ?_, valid.off_le_len, ?_,
    valid.len_le_maxData, valid.maxData_lt⟩
  · intro entry member empty
    have known := valid.empty_fin entry member empty
    rw [same entry.2.off known]
  · intro _ equal
    cases equal
    exact large

/-- The buffer passes the checks of `write`. -/
structure Admitted (recv : RecvBuf) (buf : RangeBuf) : Prop where
  limit : buf.maxOff ≤ recv.maxData
  within : ∀ final ∈ recv.finOff, buf.maxOff ≤ final
  sameFin : buf.fin → ∀ final ∈ recv.finOff, final = buf.maxOff
  received : buf.fin → recv.len ≤ buf.maxOff

/-- The final size is recorded when the buffer carries it. -/
def mark (recv : RecvBuf) (buf : RangeBuf) : RecvBuf :=
  if buf.fin then { recv with finOff := some buf.maxOff } else recv

theorem write_admission (recv : RecvBuf) (buf : RangeBuf) (bound : buf.maxOff < 2 ^ 64) :
    (∃ error, recv.write buf = some (recv, .error error)) ∨ Admitted recv buf ∧ recv.write buf =
        if recv.finOff.isSome ∧ buf.isEmpty then some (recv, .ok ())
        else if ¬ buf.fin ∧ buf.isEmpty then some (recv.mark buf, .ok ())
        else if (recv.mark buf).off ≥ buf.maxOff ∧ ¬ buf.isEmpty then some (recv.mark buf, .ok ())
        else (writeLoop (buf.len + 1) (recv.mark buf) [buf]).map (·, .ok ()) := by
  have noOverflow : ¬ buf.maxOff ≥ 2 ^ 64 := Nat.not_le.mpr bound
  rw [write, if_neg noOverflow]
  split
  · exact .inl ⟨_, rfl⟩
  · rename_i limit
    split
    · exact .inl ⟨_, rfl⟩
    · rename_i beyondFin
      split
      · exact .inl ⟨_, rfl⟩
      · rename_i changesFin
        split
        · exact .inl ⟨_, rfl⟩
        · rename_i belowReceived
          refine .inr ⟨⟨Nat.not_lt.mp limit, ?_, ?_, ?_⟩, rfl⟩
          · intro final known
            simpa [Option.mem_def.mp known] using beyondFin
          · intro isFin final known
            simpa [Option.mem_def.mp known, isFin] using changesFin
          · intro isFin
            simpa [isFin] using belowReceived

section Mark

variable (recv) (buf)

@[simp] theorem mark_data : (recv.mark buf).data = recv.data := by rw [mark]; split <;> rfl

@[simp] theorem mark_off : (recv.mark buf).off = recv.off := by rw [mark]; split <;> rfl

@[simp] theorem mark_len : (recv.mark buf).len = recv.len := by rw [mark]; split <;> rfl

@[simp] theorem mark_error : (recv.mark buf).error = recv.error := by rw [mark]; split <;> rfl

@[simp] theorem mark_drain : (recv.mark buf).drain = recv.drain := by rw [mark]; split <;> rfl

@[simp] theorem mark_flowControl : (recv.mark buf).flowControl = recv.flowControl := by
  rw [mark]; split <;> rfl

theorem mark_finOff : (recv.mark buf).finOff = if buf.fin then some buf.maxOff else recv.finOff := by
  rw [mark]; split <;> rfl

variable {recv} {buf}

theorem Admitted.mark_valid (admitted : Admitted recv buf) (valid : recv.Valid) : (recv.mark buf).Valid := by
  rw [mark]
  split
  · rename_i isFin
    exact valid.setFin (admitted.received isFin) (admitted.sameFin isFin)
  · exact valid

theorem Admitted.mark_kept (admitted : Admitted recv buf) {final : Nat}
    (known : recv.finOff = some final) : (recv.mark buf).finOff = some final := by
  rw [mark_finOff]
  split
  · rename_i isFin
    rw [admitted.sameFin isFin final known]
  · exact known

theorem mark_stored (index : Nat) (byte : UInt8) : (recv.mark buf).Stored index byte ↔ recv.Stored index byte := by
  simp [Stored]

theorem mark_endsAt (place : Nat) : (recv.mark buf).EndsAt place ↔ recv.EndsAt place := by
  simp [EndsAt]

end Mark

theorem not_covers_of_empty (empty : buf.isEmpty = true) (index : Nat) : ¬ buf.Covers index := by
  intro covers
  have same := RangeBuf.isEmpty_iff.mp empty
  have lower := covers.1
  have upper := covers.2
  omega

theorem Admitted.dropped (admitted : Admitted recv buf) (valid : recv.Valid)
    (nothing : ∀ index, recv.off ≤ index → ¬ buf.Covers index)
    (noEnd : recv.finOff = none → buf.fin → ¬ (recv.off < buf.maxOff ∨ buf.isEmpty)) :
    Accepted recv buf (recv.mark buf) where
  valid := admitted.mark_valid valid
  off := mark_off recv buf
  error := mark_error recv buf
  drain := mark_drain recv buf
  flowControl := mark_flowControl recv buf
  len_le := Nat.le_of_eq (mark_len recv buf).symm
  finOff := mark_finOff recv buf
  finOff_kept _ known := admitted.mark_kept known
  stored index lower byte := by
    simp [mark_stored, RangeBuf.byteAt_eq_none_iff.mpr (nothing index lower)]
  ends final known reached := by
    cases reached with
    | inl ends => exact (mark_endsAt final).mpr ends
    | inr learned =>
      obtain ⟨unknown, reaches⟩ := learned
      by_cases isFin : buf.fin
      · exact absurd reaches (noEnd unknown isFin)
      · rw [mark_finOff, if_neg isFin, unknown] at known
        contradiction

theorem Admitted.queued (admitted : Admitted recv buf) (valid : recv.Valid)
    (fresh : buf.off = buf.viewOff) (keeps : ¬ (¬ buf.fin ∧ buf.isEmpty))
    (news : ¬ (recv.off ≥ buf.maxOff ∧ ¬ buf.isEmpty)) : (recv.mark buf).Queued buf.byteAt buf where
  fresh := fresh
  reaches := by
    rw [mark_off]
    by_cases empty : buf.isEmpty
    · have isFin : buf.fin = true := by simpa [empty] using keeps
      have received := admitted.received isFin
      have read := valid.off_le_len
      have same := RangeBuf.isEmpty_iff.mp empty
      exact .inr ⟨same, by omega⟩
    · exact .inl (by simpa [empty] using news)
  fits final known := by
    rw [mark_finOff] at known
    split at known
    · exact Nat.le_of_eq (Option.some.inj known)
    · exact admitted.within final known
  limit := by
    rw [maxData, mark_flowControl]
    exact admitted.limit
  empty_fin same := by
    have empty : buf.isEmpty = true := RangeBuf.isEmpty_iff.mpr same
    have isFin : buf.fin = true := by simpa [empty] using keeps
    rw [mark_finOff, if_pos isFin, same]
  bytes _ _ := rfl

theorem Admitted.absorbed {final : RecvBuf} (admitted : Admitted recv buf)
    (absorbed : Absorbed (recv.mark buf) buf.byteAt [buf] final) : Accepted recv buf final where
  valid := absorbed.valid
  off := absorbed.off.trans (mark_off recv buf)
  error := absorbed.error.trans (mark_error recv buf)
  drain := absorbed.drain.trans (mark_drain recv buf)
  flowControl := absorbed.flowControl.trans (mark_flowControl recv buf)
  len_le := mark_len recv buf ▸ absorbed.len_le
  finOff := absorbed.finOff.trans (mark_finOff recv buf)
  finOff_kept _ known := absorbed.finOff.trans (admitted.mark_kept known)
  stored index lower byte := by
    rw [absorbed.stored index (by rwa [mark_off]) byte, mark_stored]
    simp only [mark_stored, List.mem_singleton, exists_eq_left]
    constructor
    · intro either
      cases either with
      | inl stored => exact .inl stored
      | inr added =>
        obtain ⟨absent, _, found⟩ := added
        exact .inr ⟨absent, found⟩
    · intro either
      cases either with
      | inl stored => exact .inl stored
      | inr added =>
        obtain ⟨absent, found⟩ := added
        exact .inr ⟨absent, RangeBuf.covers_of_byteAt found, found⟩
  ends place known reached := by
    have recorded : (recv.mark buf).finOff = some place := absorbed.finOff ▸ known
    cases reached with
    | inl ends => exact absorbed.ends place recorded (.inl ((mark_endsAt place).mpr ends))
    | inr learned =>
      obtain ⟨unknown, _⟩ := learned
      refine absorbed.ends place recorded (.inr ⟨buf, by simp, ?_⟩)
      rw [mark_finOff, unknown] at recorded
      split at recorded
      · exact Option.some.inj recorded
      · contradiction

theorem write_spec (buf : RangeBuf) (valid : recv.Valid) (open_ : recv.drain = false)
    (fresh : buf.off = buf.viewOff) (bound : buf.maxOff < 2 ^ 64) :
    ∃ next result, recv.write buf = some (next, result) ∧
      ((∃ error, result = .error error ∧ next = recv) ∨ (result = .ok () ∧ Accepted recv buf next)) := by
  cases write_admission recv buf bound with
  | inl refused =>
    obtain ⟨error, refused⟩ := refused
    exact ⟨recv, .error error, refused, .inl ⟨error, rfl, rfl⟩⟩
  | inr both =>
    obtain ⟨admitted, unfolded⟩ := both
    rw [unfolded]
    by_cases knownEmpty : recv.finOff.isSome ∧ buf.isEmpty
    · obtain ⟨final, known⟩ := Option.isSome_iff_exists.mp knownEmpty.1
      have unchanged : buf.fin → recv.finOff = some buf.maxOff := by
        intro isFin
        rw [known, admitted.sameFin isFin final known]
      exact ⟨recv, .ok (), if_pos knownEmpty, .inr ⟨rfl,
        .refl valid unchanged fun index _ => not_covers_of_empty knownEmpty.2 index⟩⟩
    by_cases plainEmpty : ¬ buf.fin ∧ buf.isEmpty
    · exact ⟨recv.mark buf, .ok (), by rw [if_neg knownEmpty, if_pos plainEmpty], .inr ⟨rfl,
        admitted.dropped valid (fun index _ => not_covers_of_empty plainEmpty.2 index)
          fun _ isFin => absurd isFin plainEmpty.1⟩⟩
    by_cases duplicate : recv.off ≥ buf.maxOff ∧ ¬ buf.isEmpty
    · refine ⟨recv.mark buf, .ok (), by rw [if_neg knownEmpty, if_neg plainEmpty, mark_off,
        if_pos duplicate], .inr ⟨rfl, admitted.dropped valid ?_ ?_⟩⟩
      · intro index lower covers
        have := covers.2
        omega
      · intro _ _ either
        cases either with
        | inl reaches => omega
        | inr empty => exact duplicate.2 empty
    have queued := admitted.queued valid fresh plainEmpty duplicate
    obtain ⟨final, completed, absorbed⟩ := writeLoop_spec (buf.len + 1)
      (admitted.mark_valid valid) ((mark_drain recv buf).trans open_)
      (by simpa using queued : ∀ item ∈ [buf], (recv.mark buf).Queued buf.byteAt item)
      (by simp only [weight_cons, weight_nil]; omega)
    refine ⟨final, .ok (), ?_, .inr ⟨rfl, admitted.absorbed absorbed⟩⟩
    rw [if_neg knownEmpty, if_neg plainEmpty, mark_off, if_neg duplicate, completed, Option.map_some]

end Quiche.RecvBuf
