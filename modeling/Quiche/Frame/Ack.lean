import Quiche.Frame
import Quiche.Octets.Wire
import Quiche.Ranges.Insert

namespace Quiche.Frame

open Data Octets

variable {smallestAck : Nat} {blocks : List (Nat × Nat)} {ranges : RangeSet}

theorem subtract_of_le {left right : Nat} (bound : right ≤ left) : subtract left right = pure (left - right) := by
  rw [subtract, subChecked_of_le bound]

section Blocks

/-- Blocks of packet numbers, each with a gap to the one before it. -/
inductive Descending : Nat → List (Nat × Nat) → Prop where
  | nil (smallestAck : Nat) : Descending smallestAck []
  | cons {smallestAck start stop : Nat} {rest : List (Nat × Nat)} (proper : start < stop)
      (gap : stop < smallestAck) (descending : Descending start rest) :
      Descending smallestAck ((start, stop) :: rest)

def ackBlocks : List (Nat × Nat) → Nat → List UInt8
  | [], _ => []
  | block :: rest, smallestAck =>
    varint (smallestAck - block.2 - 1) ++ (varint (block.2 - 1 - block.1) ++ ackBlocks rest block.1)

theorem Descending.length_le (descending : Descending smallestAck blocks) : 2 * blocks.length ≤ smallestAck := by
  induction descending with
  | nil => exact Nat.zero_le _
  | cons proper gap _ shorter =>
    rw [List.length_cons]
    omega

theorem writes_putAckBlocks (descending : Descending smallestAck blocks) (bound : smallestAck < 2 ^ 62) :
    Writes tape (putAckBlocks blocks smallestAck) (ackBlocks blocks smallestAck) () := by
  induction descending with
  | nil => exact writes_pure ()
  | @cons smallestAck start stop rest proper gap descending ih =>
    have gapSize : 1 ≤ smallestAck - stop := by omega
    have blockSize : start ≤ stop - 1 := by omega
    have positive : 1 ≤ stop := by omega
    simp only [putAckBlocks, subtract_of_le (Nat.le_of_lt gap), subtract_of_le gapSize,
      subtract_of_le positive, subtract_of_le blockSize, pure_bind]
    apply (writes_putVarint (by omega)).bind
    apply (writes_putVarint (by omega)).bind
    exact ih (by omega)

theorem insertAcked_exists {start stop : Nat} (bounded : ranges.Bounded (2 ^ 62))
    (proper : start < stop) (within : stop ≤ 2 ^ 62) (above : ∀ range ∈ ranges.iter, stop < range.1) :
    ∃ next, insertAcked ranges start (stop - 1) = pure next ∧ next.Bounded (2 ^ 62) ∧
      next.iter = (start, stop) :: ranges.iter := by
  have last : stop - 1 + 1 = stop := by omega
  obtain ⟨next, inserted, nextBounded, iter⟩ := bounded.insert (Nat.le_refl _) (Nat.le_of_lt proper) within
  refine ⟨next, ?_, nextBounded, ?_⟩
  · rw [insertAcked, last, inserted]
  · rw [iter]
    exact insertRange_before (Nat.le_of_lt proper) above bounded.separated.proper

theorem reads_getAckBlocks (descending : Descending smallestAck blocks)
    (bound : smallestAck < 2 ^ 62) (bounded : ranges.Bounded (2 ^ 62))
    (above : ∀ range ∈ ranges.iter, smallestAck ≤ range.1) :
    ∃ next, Reads cursor (getAckBlocks blocks.length smallestAck ranges)
      (ackBlocks blocks smallestAck) next ∧ next.iter = blocks.reverse ++ ranges.iter := by
  induction descending generalizing ranges with
  | nil => exact ⟨ranges, reads_pure ranges, rfl⟩
  | @cons smallestAck start stop rest proper gap descending ih =>
    obtain ⟨grown, inserted, grownBounded, grownIter⟩ := insertAcked_exists bounded proper (by omega)
        fun range member => Nat.lt_of_lt_of_le gap (above range member)
    have aboveGrown : ∀ range ∈ grown.iter, start ≤ range.1 := by
      rw [grownIter]
      refine List.forall_mem_cons.mpr ⟨Nat.le_refl _, fun range member => ?_⟩
      have := above range member
      omega
    obtain ⟨next, read, iter⟩ := ih (by omega) grownBounded aboveGrown
    refine ⟨next, ?_, by simp [iter, grownIter]⟩
    have gapFits : ¬ smallestAck < 2 + (smallestAck - stop - 1) := by omega
    have largest : smallestAck - (smallestAck - stop - 1) - 2 = stop - 1 := by omega
    have blockFits : ¬ stop - 1 < stop - 1 - start := by omega
    have smallest : stop - 1 - (stop - 1 - start) = start := by omega
    apply (reads_varint (by omega)).bind
    rw [if_neg gapFits, largest]
    apply (reads_varint (by omega)).bind
    rw [if_neg blockFits, smallest]
    dsimp only
    rw [inserted, pure_bind]
    exact read

end Blocks

section Ranges

/-- The ranges of an `ACK` frame: at least one, none empty, and no two touch. -/
structure Acknowledges (ranges : List (Nat × Nat)) : Prop where
  nonempty : ranges ≠ []
  separated : Separated ranges
  proper : ∀ range ∈ ranges, range.1 < range.2
  within : ∀ range ∈ ranges, range.2 ≤ 2 ^ 62

theorem descending_of_pairwise {first : Nat × Nat}
    (ordered : (first :: blocks).Pairwise fun later earlier => earlier.2 < later.1)
    (proper : ∀ range ∈ blocks, range.1 < range.2) : Descending first.1 blocks := by
  induction blocks generalizing first with
  | nil => exact .nil _
  | cons block rest ih =>
    obtain ⟨below, restOrdered⟩ := List.pairwise_cons.mp ordered
    obtain ⟨blockProper, restProper⟩ := List.forall_mem_cons.mp proper
    exact .cons blockProper (below block List.mem_cons_self) (ih restOrdered restProper)

theorem Acknowledges.reverse_exists {ranges : List (Nat × Nat)} (acknowledges : Acknowledges ranges) :
    ∃ start stop rest, ranges.reverse = (start, stop) :: rest ∧ start < stop ∧ stop ≤ 2 ^ 62 ∧
      Descending start rest := by
  obtain ⟨nonempty, separated, proper, within⟩ := acknowledges
  have ordered := List.pairwise_reverse.mpr separated.ordered
  have same : ∀ range, range ∈ ranges.reverse → range ∈ ranges := fun _ => List.mem_reverse.mp
  cases reversed : ranges.reverse with
  | nil => exact absurd (List.reverse_eq_nil_iff.mp reversed) nonempty
  | cons first rest =>
    rw [reversed] at ordered same
    have firstMember := same first List.mem_cons_self
    have restProper : ∀ range ∈ rest, range.1 < range.2 :=
      fun range member => proper range (same range (List.mem_cons_of_mem _ member))
    exact ⟨first.1, first.2, rest, rfl, proper first firstMember, within first firstMember,
      descending_of_pairwise ordered restProper⟩

theorem Descending.pairwise {smallest : Nat} (descending : Descending smallest blocks) :
    (∀ block ∈ blocks, block.1 < block.2 ∧ block.2 < smallest) ∧
      blocks.Pairwise fun later earlier => earlier.2 < later.1 := by
  induction descending with
  | nil => exact ⟨by simp, .nil⟩
  | @cons smallest start stop rest proper gap descending ih =>
    obtain ⟨below, ordered⟩ := ih
    refine ⟨List.forall_mem_cons.mpr ⟨⟨proper, gap⟩, fun block member => ?_⟩,
      List.pairwise_cons.mpr ⟨fun block member => (below block member).2, ordered⟩⟩
    have := below block member
    omega

theorem Acknowledges.of_reverse {ranges rest : List (Nat × Nat)} {start stop : Nat}
    (reversed : ranges.reverse = (start, stop) :: rest) (proper : start < stop) (within : stop ≤ 2 ^ 62)
    (descending : Descending start rest) : Acknowledges ranges := by
  obtain ⟨below, ordered⟩ := (Descending.cons proper (Nat.lt_succ_self stop) descending).pairwise
  rw [← reversed] at below ordered
  have inside : ∀ range ∈ ranges, range.1 < range.2 ∧ range.2 < stop.succ :=
    fun range member => below range (List.mem_reverse.mpr member)
  refine ⟨fun empty => ?_, ⟨List.pairwise_reverse.mp ordered, fun range member => ?_⟩, ?_, ?_⟩
  · rw [empty] at reversed
    cases reversed
  · exact Nat.le_of_lt (inside range member).1
  · exact fun range member => (inside range member).1
  · intro range member
    have := (inside range member).2
    omega

end Ranges

section Ecn

variable {ecnCounts : Option EcnCounts}

/-- The three counts fit into varints. -/
structure EcnEncodable (ecn : EcnCounts) : Prop where
  ect0Count : ecn.ect0Count < 2 ^ 62
  ect1Count : ecn.ect1Count < 2 ^ 62
  ecnCeCount : ecn.ecnCeCount < 2 ^ 62

def ecnBytes : Option EcnCounts → List UInt8
  | none => []
  | some ecn => varint ecn.ect0Count ++ (varint ecn.ect1Count ++ varint ecn.ecnCeCount)

/-- The type of an `ACK` frame says whether it has the counts. -/
def ackType (ecnCounts : Option EcnCounts) : Nat := if ecnCounts.isNone then 0x02 else 0x03

theorem writes_putEcnCounts (encodable : ∀ ecn ∈ ecnCounts, EcnEncodable ecn) :
    Writes tape (putEcnCounts ecnCounts) (ecnBytes ecnCounts) () := by
  cases ecnCounts with
  | none => exact writes_pure ()
  | some ecn =>
    obtain ⟨ect0, ect1, ce⟩ := encodable ecn rfl
    apply (writes_putVarint ect0).bind
    apply (writes_putVarint ect1).bind
    exact writes_putVarint ce

theorem reads_getEcnCounts (encodable : ∀ ecn ∈ ecnCounts, EcnEncodable ecn) :
    Reads cursor (getEcnCounts (ackType ecnCounts)) (ecnBytes ecnCounts) ecnCounts := by
  cases ecnCounts with
  | none => exact reads_pure none
  | some ecn =>
    have counted : ackType (some ecn) &&& 0x01 ≠ 0 := by simp [ackType]
    obtain ⟨ect0, ect1, ce⟩ := encodable ecn rfl
    rw [getEcnCounts, if_pos counted]
    apply (reads_varint ect0).bind
    apply (reads_varint ect1).bind
    exact (reads_varint ce).bind_pure rfl

end Ecn

section Frame

variable {ackDelay : Nat} {ecnCounts : Option EcnCounts}

/-- What follows the type of an `ACK` frame. -/
def ackPayload (ackDelay : Nat) (ranges : List (Nat × Nat)) (ecnCounts : Option EcnCounts) : List UInt8 :=
  match ranges.reverse with
  | [] => []
  | first :: rest =>
    varint (first.2 - 1) ++ (varint ackDelay ++ (varint rest.length ++
      (varint (first.2 - 1 - first.1) ++ (ackBlocks rest first.1 ++ ecnBytes ecnCounts))))

section

variable (delayBound : ackDelay < 2 ^ 62) (acknowledges : Acknowledges ranges.iter)
  (encodable : ∀ ecn ∈ ecnCounts, EcnEncodable ecn)

include delayBound acknowledges encodable

theorem writes_putAckFrame : Writes tape (putAckFrame ackDelay ranges ecnCounts)
      (varint (ackType ecnCounts) ++ ackPayload ackDelay ranges.iter ecnCounts) () := by
  obtain ⟨start, stop, rest, reversed, proper, within, descending⟩ := acknowledges.reverse_exists
  have length := descending.length_le
  have typeBound : ackType ecnCounts < 2 ^ 62 := by
    rw [ackType]
    split <;> decide
  have positive : 1 ≤ stop := by omega
  have blockSize : start ≤ stop - 1 := by omega
  rw [putAckFrame, ackPayload, reversed]
  apply (writes_putVarint typeBound).bind
  dsimp only
  rw [subtract_of_le positive, pure_bind, subtract_of_le blockSize, pure_bind]
  apply (writes_putVarint (by omega)).bind
  apply (writes_putVarint delayBound).bind
  apply (writes_putVarint (by omega)).bind
  apply (writes_putVarint (by omega)).bind
  apply (writes_putAckBlocks descending (by omega)).bind
  exact writes_putEcnCounts encodable

theorem reads_parseAckFrame : ∃ next, Reads cursor (parseAckFrame (ackType ecnCounts))
      (ackPayload ackDelay ranges.iter ecnCounts) (.ack ackDelay next ecnCounts) ∧ next.iter = ranges.iter := by
  obtain ⟨start, stop, rest, reversed, proper, within, descending⟩ := acknowledges.reverse_exists
  have length := descending.length_le
  obtain ⟨first, inserted, firstBounded, firstIter⟩ :=
    insertAcked_exists (RangeSet.default_bounded _) proper within (by simp [RangeSet.default, RangeSet.iter])
  have above : ∀ range ∈ first.iter, start ≤ range.1 := by
    rw [firstIter]
    simp [RangeSet.default, RangeSet.iter]
  obtain ⟨next, read, iter⟩ := reads_getAckBlocks descending (by omega) firstBounded above
  refine ⟨next, ?_, ?_⟩
  · have blockFits : ¬ stop - 1 < stop - 1 - start := by omega
    have smallest : stop - 1 - (stop - 1 - start) = start := by omega
    rw [parseAckFrame, ackPayload, reversed]
    apply (reads_varint (by omega)).bind
    apply (reads_varint delayBound).bind
    apply (reads_varint (by omega)).bind
    apply (reads_varint (by omega)).bind
    rw [if_neg blockFits, smallest]
    dsimp only
    rw [inserted, pure_bind]
    apply read.bind
    exact (reads_getEcnCounts encodable).bind_pure rfl
  · have whole : ranges.iter = rest.reverse ++ [(start, stop)] := by
      rw [← List.reverse_cons, ← reversed, List.reverse_reverse]
    rw [iter, firstIter, whole]
    rfl

end

example : ackPayload 7 [(4, 7), (9, 12)] none = [11, 7, 1, 2, 1, 2] := by decide

end Frame

end Quiche.Frame
