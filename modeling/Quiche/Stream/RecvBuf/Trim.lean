import Quiche.Stream.RecvBuf

namespace Quiche.RecvBuf

/-- The part covers some of the bytes of the whole. -/
structure Piece (whole part : RangeBuf) : Prop where
  fresh : part.off = part.viewOff
  lower : whole.off ≤ part.off
  upper : part.maxOff ≤ whole.maxOff
  bytes : ∀ index, part.Covers index → part.byteAt index = whole.byteAt index

variable {whole part inner buf front back : RangeBuf}

theorem Piece.refl (fresh : buf.off = buf.viewOff) : Piece buf buf :=
  ⟨fresh, Nat.le_refl _, Nat.le_refl _, fun _ _ => rfl⟩

theorem Piece.covers (piece : Piece whole part) {index : Nat} (covers : part.Covers index) : whole.Covers index :=
  ⟨Nat.le_trans piece.lower covers.1, Nat.lt_of_lt_of_le covers.2 piece.upper⟩

theorem Piece.trans (outer : Piece whole part) (nested : Piece part inner) : Piece whole inner where
  fresh := nested.fresh
  lower := Nat.le_trans outer.lower nested.lower
  upper := Nat.le_trans nested.upper outer.upper
  bytes index covers := (nested.bytes index covers).trans (outer.bytes index (nested.covers covers))

/-- Cutting an unread buffer at a stream offset inside it. -/
structure Cut (buf : RangeBuf) (place : Nat) (front back : RangeBuf) : Prop where
  front_piece : Piece buf front
  back_piece : Piece buf back
  front_off : front.off = buf.off
  front_maxOff : front.maxOff = place
  back_off : back.off = place
  back_maxOff : back.maxOff = buf.maxOff

theorem splitOff_cut {place : Nat} (fresh : buf.off = buf.viewOff)
    (lower : buf.off ≤ place) (upper : place ≤ buf.maxOff) :
    ∃ front back, buf.splitOff (place - buf.off) = some (front, back) ∧ Cut buf place front back := by
  have bound : place - buf.off ≤ buf.viewLen := by
    rw [buf.maxOff_eq_view] at upper
    omega
  obtain ⟨front, back, splitted, split⟩ := RangeBuf.splitOff_exists bound
  have frontOff : front.off = buf.off := by have := split.left_off; omega
  have frontMax : front.maxOff = place := by have := split.left_maxOff; omega
  have backOff : back.off = place := by have := split.right_off; omega
  have backMax : back.maxOff = buf.maxOff := split.right_maxOff bound
  refine ⟨front, back, splitted, ?_, ?_, frontOff, frontMax, backOff, backMax⟩
  · exact ⟨by have := split.left_viewOff; omega, by omega, by omega, fun _ covers => split.left_byteAt covers⟩
  · exact ⟨by have := split.right_viewOff; omega, by omega, by omega, fun _ covers => split.right_byteAt covers⟩

def weight (bufs : List RangeBuf) : Nat := (bufs.map fun buf => max 1 buf.len).sum

@[simp] theorem weight_nil : weight [] = 0 := rfl

@[simp] theorem weight_cons (buf : RangeBuf) (rest : List RangeBuf) :
    weight (buf :: rest) = max 1 buf.len + weight rest := by
  simp [weight]

@[simp] theorem weight_append (left right : List RangeBuf) :
    weight (left ++ right) = weight left + weight right := by
  simp [weight]

/-- The buffer is cut at the stored ones into pieces that overlap none of them and cover the rest of it. -/
structure Trimmed (chunks : List RangeBuf) (buf : RangeBuf) (kept : Option RangeBuf)
    (pushed : List RangeBuf) : Prop where
  kept_piece : ∀ piece ∈ kept, Piece buf piece
  pushed_piece : ∀ piece ∈ pushed, Piece buf piece
  covered : ∀ index, buf.Covers index → (∃ chunk ∈ chunks, chunk.Covers index) ∨
    (∃ piece ∈ kept, piece.Covers index) ∨ ∃ piece ∈ pushed, piece.Covers index
  apart : ∀ piece ∈ kept, ∀ chunk ∈ chunks, piece.maxOff ≤ chunk.off ∨ chunk.maxOff ≤ piece.off
  kept_empty : ∀ piece ∈ kept, piece.off = piece.maxOff → buf.off = buf.maxOff ∧
    ∀ chunk ∈ chunks, ¬ (chunk.off ≤ piece.off ∧ piece.maxOff ≤ chunk.maxOff)
  pushed_nonempty : ∀ piece ∈ pushed, piece.off < piece.maxOff
  lighter : weight pushed + 1 ≤ max 1 buf.len
  ends : (∃ chunk ∈ chunks, buf.maxOff ≤ chunk.maxOff) ∨
    (∃ piece ∈ kept, piece.maxOff = buf.maxOff) ∨ ∃ piece ∈ pushed, piece.maxOff = buf.maxOff

variable {chunk : RangeBuf} {rest pushed : List RangeBuf} {kept : Option RangeBuf}

theorem Trimmed.past (fresh : buf.off = buf.viewOff)
    (apart : (chunk :: rest).Pairwise fun left right => left.maxOff ≤ right.off)
    (past : buf.maxOff < chunk.off) : Trimmed (chunk :: rest) buf (some buf) [] := by
  have behind : ∀ other ∈ chunk :: rest, buf.maxOff < other.off := by
    intro other member
    cases List.mem_cons.mp member with
    | inl same =>
      subst same
      exact past
    | inr member =>
      have := (List.pairwise_cons.mp apart).1 other member
      have := chunk.off_le_maxOff
      omega
  have order := buf.off_le_maxOff
  refine ⟨?_, by simp, fun index covers => .inr (.inl ⟨buf, rfl, covers⟩), ?_, ?_, by simp, ?_,
    .inr (.inl ⟨buf, rfl, rfl⟩)⟩
  · intro piece equal
    cases equal
    exact Piece.refl fresh
  · intro piece equal other member
    cases equal
    exact .inl (Nat.le_of_lt (behind other member))
  · intro piece equal empty
    cases equal
    refine ⟨empty, fun other member within => ?_⟩
    have := behind other member
    omega
  · simp only [weight_nil]
    omega

theorem Trimmed.start (cut : Cut buf chunk.maxOff front back)
    (lower : chunk.off ≤ buf.off) (upper : chunk.maxOff < buf.maxOff)
    (trimmed : Trimmed rest back kept pushed) : Trimmed (chunk :: rest) buf kept pushed := by
  have backOff := cut.back_off
  have backMax := cut.back_maxOff
  refine ⟨fun piece member => cut.back_piece.trans (trimmed.kept_piece piece member),
    fun piece member => cut.back_piece.trans (trimmed.pushed_piece piece member), ?_, ?_, ?_,
    trimmed.pushed_nonempty, ?_, ?_⟩
  · intro index covers
    by_cases before : index < chunk.maxOff
    · exact .inl ⟨chunk, by simp, Nat.le_trans lower covers.1, before⟩
    · have behind : back.Covers index := ⟨by rw [backOff]; exact Nat.not_lt.mp before, by rw [backMax]; exact covers.2⟩
      cases trimmed.covered index behind with
      | inl holder =>
        obtain ⟨other, member, inside⟩ := holder
        exact .inl ⟨other, List.mem_cons_of_mem _ member, inside⟩
      | inr inside => exact .inr inside
  · intro piece member other inside
    cases List.mem_cons.mp inside with
    | inl same =>
      subst same
      have := (trimmed.kept_piece piece member).lower
      exact .inr (by omega)
    | inr inside => exact trimmed.apart piece member other inside
  · intro piece member empty
    have := (trimmed.kept_empty piece member empty).1
    omega
  · have light := trimmed.lighter
    have shorter : back.len ≤ buf.len := by
      have := cut.back_piece.lower
      simp only [RangeBuf.maxOff] at backMax
      omega
    omega
  · rw [← backMax]
    cases trimmed.ends with
    | inl holder =>
      obtain ⟨other, member, reaches⟩ := holder
      exact .inl ⟨other, List.mem_cons_of_mem _ member, reaches⟩
    | inr reaches => exact .inr reaches

theorem Trimmed.finish (cut : Cut buf chunk.off front back)
    (lower : buf.off < chunk.off) (upper : chunk.off < buf.maxOff) (trimmed : Trimmed rest front kept pushed) :
    Trimmed (chunk :: rest) buf kept (back :: pushed) := by
  have frontOff := cut.front_off
  have frontMax := cut.front_maxOff
  have backOff := cut.back_off
  have backMax := cut.back_maxOff
  refine ⟨fun piece member => cut.front_piece.trans (trimmed.kept_piece piece member), ?_, ?_, ?_,
    ?_, ?_, ?_, .inr (.inr ⟨back, by simp, backMax⟩)⟩
  · intro piece member
    cases List.mem_cons.mp member with
    | inl same =>
      subst same
      exact cut.back_piece
    | inr member => exact cut.front_piece.trans (trimmed.pushed_piece piece member)
  · intro index covers
    by_cases before : index < chunk.off
    · have ahead : front.Covers index := ⟨by rw [frontOff]; exact covers.1, by rw [frontMax]; exact before⟩
      rcases trimmed.covered index ahead with ⟨other, member, inside⟩ | inside | inside
      · exact .inl ⟨other, List.mem_cons_of_mem _ member, inside⟩
      · exact .inr (.inl inside)
      · obtain ⟨piece, member, inside⟩ := inside
        exact .inr (.inr ⟨piece, List.mem_cons_of_mem _ member, inside⟩)
    · refine .inr (.inr ⟨back, by simp, ?_, ?_⟩)
      · rw [backOff]; exact Nat.not_lt.mp before
      · rw [backMax]; exact covers.2
  · intro piece member other inside
    cases List.mem_cons.mp inside with
    | inl same =>
      subst same
      have := (trimmed.kept_piece piece member).upper
      exact .inl (by omega)
    | inr inside => exact trimmed.apart piece member other inside
  · intro piece member empty
    have := (trimmed.kept_empty piece member empty).1
    omega
  · intro piece member
    cases List.mem_cons.mp member with
    | inl same =>
      subst same
      omega
    | inr member => exact trimmed.pushed_nonempty piece member
  · have light := trimmed.lighter
    simp only [RangeBuf.maxOff] at frontMax backMax upper
    simp only [weight_cons]
    omega

theorem Trimmed.skip (notWithin : ¬ (chunk.off ≤ buf.off ∧ buf.maxOff ≤ chunk.maxOff))
    (apart : buf.maxOff ≤ chunk.off ∨ chunk.maxOff ≤ buf.off)
    (trimmed : Trimmed rest buf kept pushed) : Trimmed (chunk :: rest) buf kept pushed := by
  refine ⟨trimmed.kept_piece, trimmed.pushed_piece, ?_, ?_, ?_, trimmed.pushed_nonempty, trimmed.lighter, ?_⟩
  · intro index covers
    cases trimmed.covered index covers with
    | inl holder =>
      obtain ⟨other, member, inside⟩ := holder
      exact .inl ⟨other, List.mem_cons_of_mem _ member, inside⟩
    | inr inside => exact .inr inside
  · intro piece member other inside
    cases List.mem_cons.mp inside with
    | inl same =>
      subst same
      have lower := (trimmed.kept_piece piece member).lower
      have upper := (trimmed.kept_piece piece member).upper
      omega
    | inr inside => exact trimmed.apart piece member other inside
  · intro piece member empty
    obtain ⟨bufEmpty, notRest⟩ := trimmed.kept_empty piece member empty
    refine ⟨bufEmpty, fun other inside within => ?_⟩
    cases List.mem_cons.mp inside with
    | inl same =>
      subst same
      have lower := (trimmed.kept_piece piece member).lower
      have upper := (trimmed.kept_piece piece member).upper
      exact notWithin ⟨by omega, by omega⟩
    | inr inside => exact notRest other inside within
  · cases trimmed.ends with
    | inl holder =>
      obtain ⟨other, member, reaches⟩ := holder
      exact .inl ⟨other, List.mem_cons_of_mem _ member, reaches⟩
    | inr reaches => exact .inr reaches

theorem trim_spec {chunks : List RangeBuf} (apart : chunks.Pairwise fun left right => left.maxOff ≤ right.off)
    (fresh : buf.off = buf.viewOff) (tmpBufs : List RangeBuf) :
    ∃ kept pushed, trim chunks buf tmpBufs = some (kept, tmpBufs ++ pushed) ∧ Trimmed chunks buf kept pushed := by
  induction chunks generalizing buf tmpBufs with
  | nil =>
    refine ⟨some buf, [], by simp [trim], ?_, by simp, fun _ covers => .inr (.inl ⟨buf, rfl, covers⟩),
      by simp, by simp, by simp, by simp only [weight_nil]; omega, .inr (.inl ⟨buf, rfl, rfl⟩)⟩
    intro piece equal
    cases equal
    exact Piece.refl fresh
  | cons chunk rest ih =>
    have restApart := (List.pairwise_cons.mp apart).2
    by_cases past : chunk.off > buf.maxOff
    · exact ⟨some buf, [], by simp [trim, past], .past fresh apart past⟩
    by_cases within : buf.off ≥ chunk.off ∧ buf.maxOff ≤ chunk.maxOff
    · refine ⟨none, [], by simp [trim, past, within], by simp, by simp, fun index covers => ?_,
        by simp, by simp, by simp, by simp only [weight_nil]; omega, .inl ⟨chunk, by simp, within.2⟩⟩
      exact .inl ⟨chunk, by simp, Nat.le_trans within.1 covers.1, Nat.lt_of_lt_of_le covers.2 within.2⟩
    by_cases start : buf.off ≥ chunk.off ∧ buf.off < chunk.maxOff
    · have upper : chunk.maxOff < buf.maxOff := by omega
      obtain ⟨front, back, splitted, cut⟩ := splitOff_cut fresh
        (Nat.le_of_lt start.2) (Nat.le_of_lt upper)
      obtain ⟨kept, pushed, trimmed, spec⟩ := ih restApart cut.back_piece.fresh tmpBufs
      refine ⟨kept, pushed, ?_, .start cut start.1 upper spec⟩
      have notFront : ¬ (buf.off < chunk.off ∧ back.maxOff > chunk.off) := by omega
      simp only [trim, if_neg past, if_neg within, if_pos start, splitted, Option.map_some,
        Option.bind_eq_bind, Option.bind_some, if_neg notFront, trimmed]
    by_cases finish : buf.off < chunk.off ∧ buf.maxOff > chunk.off
    · obtain ⟨front, back, splitted, cut⟩ := splitOff_cut fresh
        (Nat.le_of_lt finish.1) (Nat.le_of_lt finish.2)
      obtain ⟨kept, pushed, trimmed, spec⟩ := ih restApart cut.front_piece.fresh (tmpBufs ++ [back])
      refine ⟨kept, back :: pushed, ?_, .finish cut finish.1 finish.2 spec⟩
      simp only [trim, if_neg past, if_neg within, if_neg start, if_pos finish, splitted,
        Option.bind_eq_bind, Option.bind_some, trimmed, List.append_assoc, List.singleton_append]
    · obtain ⟨kept, pushed, trimmed, spec⟩ := ih restApart fresh tmpBufs
      refine ⟨kept, pushed, ?_, .skip (by omega) (by omega) spec⟩
      simp only [trim, if_neg past, if_neg within, if_neg start, if_neg finish,
        Option.bind_eq_bind, Option.bind_some, trimmed]

end Quiche.RecvBuf
