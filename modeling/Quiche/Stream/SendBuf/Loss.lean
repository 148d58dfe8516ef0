import Quiche.Stream.SendBuf.Write

namespace Quiche.SendBuf

open Data

variable {stream : List UInt8} {send next : SendBuf} {front rest kept : List RangeBuf}
  {off len maxOff grown first last : Nat}

section Ack

theorem contiguous_end_le {bound : Nat} (queue : Contiguous first rest last) (start : first ≤ bound)
    (all : ∀ buf ∈ rest, buf.maxOff ≤ bound) : last ≤ bound := by
  induction rest generalizing first with
  | nil => exact Nat.le_trans (Nat.le_of_eq (Eq.symm queue)) start
  | cons buf rest ih =>
    obtain ⟨head, others⟩ := List.forall_mem_cons.mp all
    exact ih queue.2.2 (buf.maxOff_eq_view ▸ head) others

theorem droppable_split (data : List RangeBuf) (ackOff : Nat) :
    ∃ remaining, droppable data ackOff ++ remaining = data := List.takeWhile_prefix _

theorem droppable_maxOff {data : List RangeBuf} {ackOff : Nat} :
    ∀ buf ∈ droppable data ackOff, buf.maxOff ≤ ackOff := by
  intro buf member
  have acknowledged := List.mem_takeWhile_imp member
  simp only [Bool.and_eq_true, Bool.not_eq_true', Bool.and_eq_false_iff, decide_eq_false_iff_not]
    at acknowledged
  omega

theorem droppable_all {data : List RangeBuf} {ackOff : Nat} (queue : Contiguous first data last)
    (done : last ≤ ackOff) : droppable data ackOff = data := by
  rw [droppable, List.takeWhile_eq_self_iff]
  intro buf member
  have size := queue.nonempty buf member
  have upper := (queue.bounds buf member).2
  rw [RangeBuf.maxOff_eq_view] at upper ⊢
  simp only [Bool.and_eq_true, Bool.not_eq_true', Bool.and_eq_false_iff, decide_eq_false_iff_not]
  omega

theorem Valid.dropFront (valid : Valid stream send) (split : send.data = front ++ rest)
    (acked : ∀ buf ∈ front, buf.maxOff ≤ send.ackOff) :
    Valid stream { send with data := rest, pos := send.pos - front.length } := by
  obtain ⟨base, below, queue⟩ := valid.contiguous
  rw [split] at queue
  obtain ⟨middle, frontQueue, restQueue⟩ := contiguous_append.mp queue
  exact {
    contiguous := ⟨middle, contiguous_end_le frontQueue below acked, restQueue⟩
    showing := fun buf member => valid.showing buf (split ▸ List.mem_append_right front member)
    off_eq := valid.off_eq
    pos_le := by
      have bound := valid.pos_le
      rw [split, List.length_append] at bound
      show send.pos - front.length ≤ rest.length
      omega
    consumed := by
      intro buf member
      apply valid.consumed buf
      rw [split]
      cases Nat.le_total front.length send.pos with
      | inl passed =>
        rw [List.take_append, List.take_of_length_le passed]
        exact List.mem_append_right front member
      | inr inside =>
        rw [Nat.sub_eq_zero_of_le inside] at member
        simp at member
    off_le := valid.off_le
    small := valid.small
    unreadLen_le := by
      have total := valid.unreadLen_le
      rw [split, unreadLen_append] at total
      exact Nat.le_trans (Nat.le_add_left _ _) total
    acked := valid.acked
    running := valid.running
    finOff_eq := valid.finOff_eq }

/-- The range is acknowledged. -/
structure Acknowledged (send : SendBuf) (off len : Nat) (next : SendBuf) : Prop where
  off_eq : next.off = send.off
  maxData : next.maxData = send.maxData
  finOff : next.finOff = send.finOff
  iter : next.acked.iter = insertRange off (off + len) send.acked.iter
  ackOff_le : send.ackOff ≤ next.ackOff
  /-- Only acknowledged offsets leave the queue. -/
  unread : ∀ place, Unread send.data place → next.ackOff ≤ place → Unread next.data place
  only : ∀ place, Unread next.data place → Unread send.data place
  done : send.off ≤ next.ackOff → ∀ place, ¬ Unread next.data place

theorem firstStop_insertRange {ranges : List (Nat × Nat)} {low high : Nat} (separated : Separated ranges) :
    firstStop ranges ≤ firstStop (insertRange low high ranges) := by
  cases ranges with
  | nil => exact Nat.zero_le _
  | cons range rest =>
    obtain ⟨start, stop⟩ := range
    cases start with
    | succ start => exact Nat.zero_le _
    | zero =>
      obtain ⟨_, following, restSeparated⟩ := separated_cons.mp separated
      rw [insertRange]
      by_cases apart : stop < low
      · rw [if_pos apart]
        exact Nat.le_refl _
      · rw [if_neg apart, if_neg (Nat.not_lt_zero _), Nat.min_zero]
        obtain ⟨upper, after, first, bound⟩ := insertRange_first (Nat.zero_le (max high stop))
          (fun _ _ => Nat.zero_le _) restSeparated.proper
        rw [first]
        exact Nat.le_trans (Nat.le_max_right _ _) bound

theorem ackAndDrop_spec (valid : Valid stream send) (within : off + len ≤ send.off) :
    ∃ next, send.ackAndDrop off len = some next ∧ Valid stream next ∧ Acknowledged send off len next := by
  have small : send.off < 2 ^ 62 := Nat.lt_of_le_of_lt valid.off_le valid.small
  obtain ⟨acked, inserted, bounded, iter⟩ := valid.acked.insert (Nat.le_of_lt small) (Nat.le_add_right off len) within
  have recorded : send.ack off len = some { send with acked := acked } := by
    rw [ack, inserted]
    rfl
  have monotone : send.ackOff ≤ { send with acked := acked }.ackOff :=
    Nat.le_trans (firstStop_insertRange valid.acked.separated)
      (Nat.le_of_eq (congrArg firstStop iter.symm))
  obtain ⟨base, below, queue⟩ := valid.contiguous
  have undropped : Valid stream { send with acked := acked } :=
    { valid with
      contiguous := ⟨base, Nat.le_trans below monotone, queue⟩
      acked := bounded }
  have ignored : (send.off ≤ { send with acked := acked }.ackOff → ∀ place, ¬ Unread send.data place) →
      Acknowledged send off len { send with acked := acked } := fun done =>
    ⟨rfl, rfl, rfl, iter, monotone, fun _ waits _ => waits, fun _ waits => waits, done⟩
  rw [ackAndDrop, recorded]
  dsimp only [Option.bind_eq_bind, Option.bind_some]
  by_cases empty : send.data.isEmpty = true
  · rw [if_pos empty]
    refine ⟨_, rfl, undropped, ignored fun _ place waits => ?_⟩
    obtain ⟨buf, member, _⟩ := waits
    rw [List.isEmpty_iff.mp empty] at member
    cases member
  rw [if_neg empty]
  by_cases ahead : off > { send with acked := acked }.ackOff
  · rw [if_pos ahead]
    exact ⟨_, rfl, undropped, ignored fun done => by omega⟩
  rw [if_neg ahead]
  obtain ⟨remaining, split⟩ := droppable_split send.data { send with acked := acked }.ackOff
  have acknowledged : ∀ buf ∈ droppable send.data { send with acked := acked }.ackOff,
      buf.maxOff ≤ { send with acked := acked }.ackOff := droppable_maxOff
  have nothing : send.off ≤ { send with acked := acked }.ackOff → remaining = [] := by
    intro done
    rw [droppable_all queue done] at split
    exact List.append_right_eq_self.mp split
  generalize droppable send.data { send with acked := acked }.ackOff = dropped at split acknowledged
  have left : send.data.drop dropped.length = remaining := by rw [← split, List.drop_left]
  refine ⟨{ send with acked := acked, data := remaining, pos := send.pos - dropped.length }, ?_,
    undropped.dropFront split.symm acknowledged, ⟨rfl, rfl, rfl, iter, monotone, ?_, ?_, ?_⟩⟩
  · rw [← left]
    rfl
  · intro place waits above
    rw [← split, unread_append] at waits
    cases waits with
    | inl holder =>
      obtain ⟨buf, member, covers⟩ := holder
      exact absurd covers.2 (Nat.not_lt.mpr (Nat.le_trans (acknowledged buf member) above))
    | inr waits => exact waits
  · intro place waits
    rw [← split, unread_append]
    exact .inr waits
  · intro done place
    dsimp only
    rw [nothing done]
    exact unread_nil place

end Ack

section Retransmit

variable {buf left right : RangeBuf}

/-- What marking `off` to `maxOff` as lost does to a queue: `grown` more bytes wait
than before. -/
inductive Rewound (off maxOff : Nat) : List RangeBuf → List RangeBuf → Nat → Prop where
  | stop (rest : List RangeBuf) (past : ∀ buf, rest.head? = some buf → maxOff ≤ buf.viewOff) :
      Rewound off maxOff rest rest 0
  | skip {buf : RangeBuf} {rest kept : List RangeBuf} {grown : Nat} (ahead : buf.maxOff < off)
      (following : Rewound off maxOff rest kept grown) :
      Rewound off maxOff (buf :: rest) (buf :: kept) grown
  | whole {buf : RangeBuf} {rest kept : List RangeBuf} {grown : Nat} (reached : off ≤ buf.maxOff)
      (ended : buf.maxOff ≤ maxOff) (following : Rewound off maxOff rest kept grown) :
      Rewound off maxOff (buf :: rest) (rewindLost buf off :: kept)
        (buf.pos - (rewindLost buf off).pos + grown)
  | cut {buf left right : RangeBuf} {rest : List RangeBuf} (inside : buf.viewOff < maxOff)
      (shorter : maxOff < buf.maxOff) (split : buf.Split (maxOff - buf.viewOff) left right) :
      Rewound off maxOff (buf :: rest) (rewindLost left off :: right :: rest)
        (left.pos - (rewindLost left off).pos)

section RewindLost

section

variable (buf : RangeBuf) (off : Nat)

@[simp] theorem rewindLost_viewOff (buf : RangeBuf) (off : Nat) :
    (rewindLost buf off).viewOff = buf.viewOff := by
  rw [rewindLost]
  split <;> rfl

@[simp] theorem rewindLost_viewLen (buf : RangeBuf) (off : Nat) :
    (rewindLost buf off).viewLen = buf.viewLen := by
  rw [rewindLost]
  split <;> rfl

@[simp] theorem rewindLost_view (buf : RangeBuf) (off : Nat) :
    (rewindLost buf off).view = buf.view := by
  rw [rewindLost]
  split <;> rfl

theorem rewindLost_maxOff : (rewindLost buf off).maxOff = buf.maxOff := by
  rw [RangeBuf.maxOff_eq_view, RangeBuf.maxOff_eq_view, rewindLost_viewOff, rewindLost_viewLen]

theorem rewindLost_off_le : (rewindLost buf off).off ≤ buf.off ∧ (rewindLost buf off).off ≤ max off buf.viewOff := by
  have startOff := buf.start_le_viewOff
  have startPos := buf.start_le_pos
  rw [rewindLost]
  split <;> simp only [RangeBuf.off, RangeBuf.rewind] <;> omega

theorem rewindLost_len : (rewindLost buf off).len = buf.len + (buf.pos - (rewindLost buf off).pos) := by
  have startPos := buf.start_le_pos
  have posEnd := buf.pos_le
  rw [rewindLost]
  split <;> simp only [RangeBuf.len, RangeBuf.rewind] <;> omega

end

theorem rewindLost_covers {place : Nat} (covers : buf.Covers place) : (rewindLost buf off).Covers place :=
  ⟨Nat.le_trans (rewindLost_off_le buf off).1 covers.1, rewindLost_maxOff buf off ▸ covers.2⟩

theorem rewindLost_covers_lost {place : Nat} (lost : off ≤ place) (lower : buf.viewOff ≤ place)
    (upper : place < buf.maxOff) : (rewindLost buf off).Covers place :=
  ⟨Nat.le_trans (rewindLost_off_le buf off).2 (Nat.max_le.mpr ⟨lost, lower⟩), rewindLost_maxOff buf off ▸ upper⟩

theorem rewindLost_covers_only {place : Nat} (reached : off ≤ buf.maxOff)
    (covers : (rewindLost buf off).Covers place) : buf.Covers place ∨ off ≤ place ∧ place < buf.maxOff := by
  obtain ⟨lower, upper⟩ := covers
  have startOff := buf.start_le_viewOff
  have startPos := buf.start_le_pos
  rw [rewindLost_maxOff] at upper
  rw [RangeBuf.Covers]
  rw [rewindLost] at lower
  split at lower <;> simp only [RangeBuf.off, RangeBuf.rewind] at lower ⊢ <;> omega

theorem rewindLost_shows (shown : Shows stream buf) : Shows stream (rewindLost buf off) := by
  rw [Shows, rewindLost_view, rewindLost_viewOff, rewindLost_viewLen]
  exact shown

end RewindLost

section Cut

variable {index : Nat}

section

variable (split : buf.Split index left right)

include split

section

variable (bound : index ≤ buf.viewLen)

include bound

theorem split_len :
    left.len + right.len = buf.len := by
  have leftEnd := split.left_maxOff
  have rightEnd := split.right_maxOff bound
  have leftOff := split.left_off
  have rightOff := split.right_off
  have whole := buf.maxOff_eq_view
  simp only [RangeBuf.maxOff] at leftEnd rightEnd whole
  omega

theorem split_shows
    (shown : Shows stream buf) : Shows stream left ∧ Shows stream right := by
  constructor
  · rw [Shows, split.left_view, split.left_viewOff, split.left_viewLen, shown, List.take_take,
      Nat.min_eq_left bound]
  · rw [Shows, split.right_view, split.right_viewOff, split.right_viewLen, shown, List.drop_take, List.drop_drop]

theorem split_covers {place : Nat}
    (covers : buf.Covers place) : left.Covers place ∨ right.Covers place := by
  have leftEnd := split.left_maxOff
  have rightEnd := split.right_maxOff bound
  have leftOff := split.left_off
  have rightOff := split.right_off
  obtain ⟨lower, upper⟩ := covers
  rw [RangeBuf.Covers, RangeBuf.Covers]
  omega

theorem covers_of_split {place : Nat}
    (covers : left.Covers place ∨ right.Covers place) : buf.Covers place := by
  have leftEnd := split.left_maxOff
  have rightEnd := split.right_maxOff bound
  have leftOff := split.left_off
  have rightOff := split.right_off
  have whole := buf.maxOff_eq_view
  rw [RangeBuf.Covers, RangeBuf.Covers] at covers
  rw [RangeBuf.Covers]
  omega

end

end

end Cut

namespace Rewound

section

variable (rewound : Rewound off maxOff rest kept grown)

include rewound

theorem contiguous (queue : Contiguous first rest last) :
    Contiguous first kept last := by
  induction rewound generalizing first with
  | stop rest past => exact queue
  | skip ahead following ih => exact ⟨queue.1, queue.2.1, ih queue.2.2⟩
  | @whole buf rest kept grown reached ended following ih =>
    obtain ⟨start, size, behind⟩ := queue
    refine ⟨(rewindLost_viewOff buf off).trans start, ?_, ?_⟩
    · rwa [rewindLost_viewLen]
    · rw [rewindLost_viewOff, rewindLost_viewLen]
      exact ih behind
  | @cut buf left right rest inside shorter split =>
    obtain ⟨start, size, behind⟩ := queue
    rw [RangeBuf.maxOff_eq_view] at shorter
    have leftOff := split.left_viewOff
    have leftLen := split.left_viewLen
    have rightOff := split.right_viewOff
    have rightLen := split.right_viewLen
    refine ⟨by rw [rewindLost_viewOff, leftOff, start], by rw [rewindLost_viewLen]; omega,
      by rw [rewindLost_viewOff, rewindLost_viewLen]; omega, by omega, ?_⟩
    have same : right.viewOff + right.viewLen = buf.viewOff + buf.viewLen := by omega
    rwa [same]

theorem showing (all : ∀ buf ∈ rest, Shows stream buf) :
    ∀ buf ∈ kept, Shows stream buf := by
  induction rewound with
  | stop rest past => exact all
  | skip ahead following ih =>
    obtain ⟨head, others⟩ := List.forall_mem_cons.mp all
    exact List.forall_mem_cons.mpr ⟨head, ih others⟩
  | whole reached ended following ih =>
    obtain ⟨head, others⟩ := List.forall_mem_cons.mp all
    exact List.forall_mem_cons.mpr ⟨rewindLost_shows head, ih others⟩
  | @cut buf left right rest inside shorter split =>
    obtain ⟨head, others⟩ := List.forall_mem_cons.mp all
    rw [RangeBuf.maxOff_eq_view] at shorter
    obtain ⟨leftShown, rightShown⟩ := split_shows split (by omega) head
    exact List.forall_mem_cons.mpr ⟨rewindLost_shows leftShown, List.forall_mem_cons.mpr ⟨rightShown, others⟩⟩

theorem unreadLen_eq : unreadLen kept = unreadLen rest + grown := by
  induction rewound with
  | stop rest past => rfl
  | skip ahead following ih =>
    rw [unreadLen_cons, unreadLen_cons, ih, Nat.add_assoc]
  | @whole buf rest kept grown reached ended following ih =>
    rw [unreadLen_cons, unreadLen_cons, ih, rewindLost_len]
    omega
  | @cut buf left right rest inside shorter split =>
    rw [RangeBuf.maxOff_eq_view] at shorter
    have parts := split_len split (by omega)
    rw [unreadLen_cons, unreadLen_cons, unreadLen_cons, rewindLost_len]
    omega

theorem unread_mono {place : Nat}
    (waits : Unread rest place) : Unread kept place := by
  induction rewound with
  | stop rest past => exact waits
  | skip ahead following ih => exact unread_cons.mpr ((unread_cons.mp waits).imp_right ih)
  | whole reached ended following ih =>
    exact unread_cons.mpr ((unread_cons.mp waits).imp rewindLost_covers ih)
  | @cut buf left right rest inside shorter split =>
    rw [RangeBuf.maxOff_eq_view] at shorter
    rw [unread_cons, unread_cons]
    cases unread_cons.mp waits with
    | inl covers => exact (split_covers split (by omega) covers).imp rewindLost_covers .inl
    | inr waits => exact .inr (.inr waits)

theorem unread_lost (queue : Contiguous first rest last)
    {place : Nat} (lower : first ≤ place) (upper : place < last) (lost : off ≤ place)
    (before : place < maxOff) : Unread kept place := by
  induction rewound generalizing first with
  | stop rest past =>
    cases rest with
    | nil =>
      have same : first = last := queue
      omega
    | cons buf rest =>
      have := past buf rfl
      have := queue.1
      omega
  | @skip buf rest kept grown ahead following ih =>
    rw [RangeBuf.maxOff_eq_view] at ahead
    exact unread_cons.mpr (.inr (ih queue.2.2 (by omega)))
  | @whole buf rest kept grown reached ended following ih =>
    obtain ⟨start, size, behind⟩ := queue
    rw [unread_cons]
    by_cases inside : place < buf.maxOff
    · exact .inl (rewindLost_covers_lost lost (by omega) inside)
    · rw [RangeBuf.maxOff_eq_view] at inside
      exact .inr (ih behind (Nat.not_lt.mp inside))
  | @cut buf left right rest inside shorter split =>
    have leftEnd := split.left_maxOff
    have leftOff := split.left_viewOff
    have start := queue.1
    exact unread_cons.mpr (.inl (rewindLost_covers_lost lost (by omega) (by omega)))

theorem unread_only (order : off ≤ maxOff) {place : Nat}
    (waits : Unread kept place) : Unread rest place ∨ off ≤ place ∧ place < maxOff := by
  induction rewound with
  | stop rest past => exact .inl waits
  | skip ahead following ih =>
    rcases unread_cons.mp waits with covers | later
    · exact .inl (unread_cons.mpr (.inl covers))
    · exact (ih later).imp_left fun before => unread_cons.mpr (.inr before)
  | @whole buf rest kept grown reached ended following ih =>
    rcases unread_cons.mp waits with covers | later
    · exact (rewindLost_covers_only reached covers).imp (fun covers => unread_cons.mpr (.inl covers))
        fun lost => ⟨lost.1, Nat.lt_of_lt_of_le lost.2 ended⟩
    · exact (ih later).imp_left fun before => unread_cons.mpr (.inr before)
  | @cut buf left right rest inside shorter split =>
    have leftEnd := split.left_maxOff
    rw [RangeBuf.maxOff_eq_view] at shorter
    rw [unread_cons]
    rcases unread_cons.mp waits with covers | later
    · rcases rewindLost_covers_only (by omega) covers with before | lost
      · exact .inl (.inl (covers_of_split split (by omega) (.inl before)))
      · exact .inr ⟨lost.1, by omega⟩
    rcases unread_cons.mp later with covers | later
    · exact .inl (.inl (covers_of_split split (by omega) (.inr covers)))
    · exact .inl (.inr later)

end

end Rewound

theorem retransmitLoop_past {turns place : Nat} (found : send.data[place]? = some buf)
    (past : maxOff ≤ buf.viewOff) : retransmitLoop off maxOff turns place send = some send := by
  cases turns with
  | zero => rfl
  | succ turns =>
    rw [retransmitLoop, found]
    exact if_pos past

theorem retransmitLoop_exists (off maxOff : Nat) (front rest : List RangeBuf) (send : SendBuf)
    (split : send.data = front ++ rest) : ∃ kept grown pos, retransmitLoop off maxOff rest.length front.length send =
        some { send with data := front ++ kept, pos := pos, len := send.len + grown } ∧
      Rewound off maxOff rest kept grown ∧ pos ≤ send.pos ∧ (front ++ kept).take pos = (front ++ rest).take pos := by
  induction rest generalizing front send with
  | nil =>
    refine ⟨[], 0, send.pos, ?_, .stop [] (by simp), Nat.le_refl _, rfl⟩
    rw [← split]
    rfl
  | cons buf rest ih =>
    have current : send.data[front.length]? = some buf := by simp [split]
    have unchanged : some send =
        some { send with data := front ++ buf :: rest, pos := send.pos, len := send.len + 0 } := by
      rw [← split]
      rfl
    by_cases past : maxOff ≤ buf.viewOff
    · refine ⟨buf :: rest, 0, send.pos, (retransmitLoop_past current past).trans unchanged, ?_, Nat.le_refl _, rfl⟩
      refine .stop _ ?_
      intro first equal
      cases equal
      exact past
    rw [List.length_cons, retransmitLoop, current]
    dsimp only
    rw [if_neg past]
    by_cases ahead : off > buf.maxOff
    · obtain ⟨kept, grown, pos, looped, rewound, back, same⟩ := ih (front ++ [buf]) send (by simp [split])
      rw [List.length_append, List.length_singleton, List.append_assoc] at looped
      rw [List.append_assoc, List.append_assoc] at same
      rw [if_pos ahead]
      exact ⟨buf :: kept, grown, pos, looped, .skip ahead rewound, back, same⟩
    rw [if_neg ahead]
    have around : ∀ bufs, send.data.take front.length ++ bufs ++ send.data.drop (front.length + 1) =
        front ++ (bufs ++ rest) := by
      intro bufs
      simp [split]
    have sameFront : ∀ {pos} {new old : List RangeBuf}, pos ≤ min send.pos front.length →
        (front ++ new).take pos = (front ++ old).take pos := by
      intro pos new old bound
      have short : pos ≤ front.length := Nat.le_trans bound (Nat.min_le_right _ _)
      rw [List.take_append_of_le_length short, List.take_append_of_le_length short]
    by_cases shorter : maxOff < buf.maxOff
    · have bound : maxOff - buf.viewOff ≤ buf.viewLen := by
        rw [RangeBuf.maxOff_eq_view] at shorter
        omega
      obtain ⟨left, right, cut, parts⟩ := RangeBuf.splitOff_exists bound
      have lost : splitLost buf maxOff = some (left, some right) := by
        rw [splitLost, if_pos ⟨Nat.not_le.mp past, shorter⟩, cut]
        rfl
      have rightStart : maxOff ≤ right.viewOff := by
        have := parts.right_viewOff
        omega
      refine ⟨rewindLost left off :: right :: rest, left.pos - (rewindLost left off).pos,
        min send.pos front.length, ?_, .cut (Nat.not_le.mp past) shorter parts,
        Nat.min_le_left _ _, sameFront (Nat.le_refl _)⟩
      rw [lost]
      dsimp only [Option.bind_eq_bind, Option.bind_some, Option.toList_some]
      rw [around, List.cons_append, List.singleton_append]
      exact retransmitLoop_past (by simp) rightStart
    · have lost : splitLost buf maxOff = some (buf, none) := by
        rw [splitLost, if_neg (fun inside => shorter inside.2)]
      rw [lost]
      dsimp only [Option.bind_eq_bind, Option.bind_some, Option.toList_none]
      rw [around, List.singleton_append]
      obtain ⟨kept, grown, pos, looped, rewound, back, _⟩ := ih (front ++ [rewindLost buf off])
        { send with
          data := front ++ rewindLost buf off :: rest
          pos := min send.pos front.length
          len := send.len + (buf.pos - (rewindLost buf off).pos) } (by simp)
      rw [List.length_append, List.length_singleton, List.append_assoc, Nat.add_assoc] at looped
      exact ⟨rewindLost buf off :: kept, _, pos, looped, .whole (Nat.not_lt.mp ahead) (Nat.not_lt.mp shorter) rewound,
        Nat.le_trans back (Nat.min_le_left _ _), sameFront back⟩

/-- The range waits for another transmission. -/
structure Requeued (send : SendBuf) (off len : Nat) (next : SendBuf) : Prop where
  off_eq : next.off = send.off
  maxData : next.maxData = send.maxData
  finOff : next.finOff = send.finOff
  acked : next.acked = send.acked
  unread : ∀ place, Unread send.data place → Unread next.data place
  /-- The lost offsets wait again, unless all data up to them was acknowledged. -/
  lost : ∀ place, off ≤ place → place < off + len → send.ackOff ≤ place → place < send.off → Unread next.data place
  only : ∀ place, Unread next.data place → Unread send.data place ∨ off ≤ place ∧ place < off + len
  idle : off + len ≤ send.ackOff → next = send

theorem retransmit_spec (valid : Valid stream send) (off len : Nat) :
    ∃ next, send.retransmit off len = some next ∧ Valid stream next ∧ Requeued send off len next := by
  obtain ⟨base, below, queue⟩ := valid.contiguous
  rw [retransmit]
  by_cases empty : send.data.isEmpty = true
  · rw [if_pos empty]
    refine ⟨send, rfl, valid, rfl, rfl, rfl, rfl, fun _ waits => waits, ?_, fun _ waits => .inl waits, fun _ => rfl⟩
    intro place _ _ above before
    rw [List.isEmpty_iff.mp empty] at queue
    have same : base = send.off := queue
    omega
  rw [if_neg empty]
  by_cases acknowledged : off + len ≤ send.ackOff
  · rw [if_pos acknowledged]
    refine ⟨send, rfl, valid, rfl, rfl, rfl, rfl, fun _ waits => waits, ?_, fun _ waits => .inl waits, fun _ => rfl⟩
    intro place _ before above _
    omega
  rw [if_neg acknowledged]
  obtain ⟨kept, grown, pos, looped, rewound, back, same⟩ := retransmitLoop_exists off (off + len) [] send.data send rfl
  rw [List.nil_append] at looped same
  rw [List.nil_append] at same
  refine ⟨_, looped, ?_, rfl, rfl, rfl, rfl, fun _ waits => rewound.unread_mono waits, ?_,
    fun _ waits => rewound.unread_only (Nat.le_add_right _ _) waits, fun below => absurd below acknowledged⟩
  · exact {
      contiguous := ⟨base, below, rewound.contiguous queue⟩
      showing := rewound.showing valid.showing
      off_eq := valid.off_eq
      pos_le := by
        have length := congrArg List.length same
        have bound := valid.pos_le
        rw [List.length_take, List.length_take] at length
        show pos ≤ kept.length
        omega
      consumed := by
        intro buf member
        apply valid.consumed buf
        have prefix_ : send.data.take pos <+: send.data.take send.pos := List.take_prefix_take_left back
        exact prefix_.subset (same ▸ member)
      off_le := valid.off_le
      small := valid.small
      unreadLen_le := by
        rw [rewound.unreadLen_eq]
        exact Nat.add_le_add_right valid.unreadLen_le _
      acked := valid.acked
      running := valid.running
      finOff_eq := valid.finOff_eq }
  · intro place lost before above inside
    exact rewound.unread_lost queue (Nat.le_trans below above) inside lost before

end Retransmit

end Quiche.SendBuf
