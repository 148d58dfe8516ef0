import Mathlib.Data.List.Pairwise
import Mathlib.Order.Lattice
import Mathlib.Order.MinMax

namespace Quiche.Data

/-! Sets of values as ascending lists of half-open intervals `(low, high)`.

Neighbours are merged as soon as they touch, so that every set has one normal form.
An empty interval counts as touching the intervals that contain or end at its
place, and is kept when there are none. -/

variable {Value : Type} [LinearOrder Value]

/-- The ranges are in order, with a gap between any two. -/
structure Separated (ranges : List (Value × Value)) : Prop where
  ordered : ranges.Pairwise fun left right => left.2 < right.1
  proper : ∀ range ∈ ranges, range.1 ≤ range.2

/-- The value lies in one of the ranges. -/
def Covered (ranges : List (Value × Value)) (value : Value) : Prop :=
  ∃ range ∈ ranges, range.1 ≤ value ∧ value < range.2

instance (ranges : List (Value × Value)) (value : Value) : Decidable (Covered ranges value) :=
  inferInstanceAs (Decidable (∃ range ∈ ranges, range.1 ≤ value ∧ value < range.2))

instance (ranges : List (Value × Value)) : Decidable (Separated ranges) :=
  decidable_of_iff ((ranges.Pairwise fun left right => left.2 < right.1) ∧ ∀ range ∈ ranges, range.1 ≤ range.2)
    ⟨fun both => ⟨both.1, both.2⟩, fun separated => ⟨separated.ordered, separated.proper⟩⟩

/-- No range is empty. -/
def Occupied (ranges : List (Value × Value)) : Prop := ∀ range ∈ ranges, range.1 < range.2

/-- Adds an interval, merged with all those it touches. -/
def insertRange (low high : Value) : List (Value × Value) → List (Value × Value)
  | [] => [(low, high)]
  | range :: rest =>
    if range.2 < low then range :: insertRange low high rest
    else if high < range.1 then (low, high) :: range :: rest
    else insertRange (min low range.1) (max high range.2) rest

/-- Removes all values below `low`. -/
def cutBelow (low : Value) : List (Value × Value) → List (Value × Value)
  | [] => []
  | range :: rest => if range.2 ≤ low then cutBelow low rest else (max low range.1, range.2) :: rest

variable {low high : Value} {range : Value × Value} {before rest ranges : List (Value × Value)}

theorem separated_nil : Separated ([] : List (Value × Value)) := ⟨.nil, by simp⟩

theorem separated_cons :
    Separated (range :: rest) ↔ range.1 ≤ range.2 ∧ (∀ later ∈ rest, range.2 < later.1) ∧ Separated rest := by
  constructor
  · intro both
    obtain ⟨ordered, proper⟩ := both
    obtain ⟨first, others⟩ := List.pairwise_cons.mp ordered
    exact ⟨proper range List.mem_cons_self, first, others,
      fun later member => proper later (List.mem_cons_of_mem _ member)⟩
  · intro both
    obtain ⟨nonempty, first, others⟩ := both
    refine ⟨List.pairwise_cons.mpr ⟨first, others.ordered⟩, ?_⟩
    intro later member
    cases List.mem_cons.mp member with
    | inl same =>
      subst same
      exact nonempty
    | inr member => exact others.proper later member

theorem Separated.append_right (separated : Separated (before ++ rest)) : Separated rest :=
  ⟨(List.pairwise_append.mp separated.ordered).2.1,
    fun range member => separated.proper range (List.mem_append_right before member)⟩

@[simp] theorem covered_nil (value : Value) : ¬ Covered ([] : List (Value × Value)) value := by
  simp [Covered]

@[simp] theorem covered_cons (value : Value) :
    Covered (range :: rest) value ↔ (range.1 ≤ value ∧ value < range.2) ∨ Covered rest value := by
  simp [Covered]

theorem insertRange_length_le (low high : Value) (ranges : List (Value × Value)) :
    (insertRange low high ranges).length ≤ ranges.length + 1 := by
  induction ranges generalizing low high with
  | nil => exact Nat.le_refl 1
  | cons range rest ih =>
    rw [insertRange]
    split
    · exact Nat.succ_le_succ (ih low high)
    · split
      · exact Nat.le_refl _
      · exact Nat.le_succ_of_le (ih _ _)

variable {bound value : Value}

theorem lt_insertRange (below : bound < low) (belowAll : ∀ range ∈ ranges, bound < range.1) :
    ∀ range ∈ insertRange low high ranges, bound < range.1 := by
  induction ranges generalizing low high with
  | nil => simpa [insertRange] using below
  | cons head rest ih =>
    obtain ⟨belowHead, belowRest⟩ := List.forall_mem_cons.mp belowAll
    rw [insertRange]
    split
    · exact List.forall_mem_cons.mpr ⟨belowHead, ih below belowRest⟩
    · split
      · exact List.forall_mem_cons.mpr ⟨below, belowAll⟩
      · exact ih (lt_min below belowHead) belowRest

theorem insertRange_le (above : high ≤ bound) (aboveAll : ∀ range ∈ ranges, range.2 ≤ bound) :
    ∀ range ∈ insertRange low high ranges, range.2 ≤ bound := by
  induction ranges generalizing low high with
  | nil => simpa [insertRange] using above
  | cons head rest ih =>
    obtain ⟨aboveHead, aboveRest⟩ := List.forall_mem_cons.mp aboveAll
    rw [insertRange]
    split
    · exact List.forall_mem_cons.mpr ⟨aboveHead, ih above aboveRest⟩
    · split
      · exact List.forall_mem_cons.mpr ⟨above, aboveAll⟩
      · exact ih (max_le above aboveHead) aboveRest

theorem Separated.insertRange (separated : Separated ranges) (proper : low ≤ high) :
    Separated (insertRange low high ranges) := by
  induction ranges generalizing low high with
  | nil => exact ⟨List.pairwise_singleton _ _, by simpa [Data.insertRange] using proper⟩
  | cons head rest ih =>
    obtain ⟨headProper, headFirst, restSeparated⟩ := separated_cons.mp separated
    rw [Data.insertRange]
    split
    · rename_i before
      exact separated_cons.mpr ⟨headProper, lt_insertRange before headFirst, ih restSeparated proper⟩
    · split
      · rename_i after
        refine separated_cons.mpr ⟨proper, ?_, separated⟩
        refine List.forall_mem_cons.mpr ⟨after, ?_⟩
        intro later member
        exact after.trans (headProper.trans_lt (headFirst later member))
      · exact ih restSeparated ((min_le_left _ _).trans (proper.trans (le_max_left _ _)))

theorem covered_insertRange (proper : low ≤ high) (allProper : ∀ range ∈ ranges, range.1 ≤ range.2) (value : Value) :
    Covered (insertRange low high ranges) value ↔ (low ≤ value ∧ value < high) ∨ Covered ranges value := by
  induction ranges generalizing low high with
  | nil => simp [insertRange]
  | cons head rest ih =>
    obtain ⟨headProper, restProper⟩ := List.forall_mem_cons.mp allProper
    rw [insertRange]
    split
    · rw [covered_cons, ih proper restProper, covered_cons, or_left_comm]
    · rename_i reaches
      split
      · rw [covered_cons]
      · rename_i starts
        have merged : min low head.1 ≤ value ∧ value < max high head.2 ↔
            (low ≤ value ∧ value < high) ∨ (head.1 ≤ value ∧ value < head.2) := by
          rw [min_le_iff, lt_max_iff]
          rw [not_lt] at reaches starts
          constructor
          · rintro ⟨lower | lower, upper | upper⟩
            · exact .inl ⟨lower, upper⟩
            · cases lt_or_ge value high with
              | inl inside => exact .inl ⟨lower, inside⟩
              | inr beyond => exact .inr ⟨starts.trans beyond, upper⟩
            · cases lt_or_ge value head.2 with
              | inl inside => exact .inr ⟨lower, inside⟩
              | inr beyond => exact .inl ⟨reaches.trans beyond, upper⟩
            · exact .inr ⟨lower, upper⟩
          · intro either
            cases either with
            | inl bounds =>
              obtain ⟨lower, upper⟩ := bounds
              exact ⟨.inl lower, .inl upper⟩
            | inr bounds =>
              obtain ⟨lower, upper⟩ := bounds
              exact ⟨.inr lower, .inr upper⟩
        rw [ih ((min_le_left _ _).trans (proper.trans (le_max_left _ _))) restProper, merged,
          covered_cons, or_assoc]

theorem insertRange_first (proper : low ≤ high) (above : ∀ range ∈ ranges, low ≤ range.1)
    (allProper : ∀ range ∈ ranges, range.1 ≤ range.2) :
    ∃ upper after, insertRange low high ranges = (low, upper) :: after ∧ high ≤ upper := by
  induction ranges generalizing high with
  | nil => exact ⟨high, [], rfl, le_refl _⟩
  | cons head rest ih =>
    obtain ⟨aboveHead, aboveRest⟩ := List.forall_mem_cons.mp above
    obtain ⟨headProper, restProper⟩ := List.forall_mem_cons.mp allProper
    rw [insertRange, if_neg (not_lt.mpr (aboveHead.trans headProper)), min_eq_left aboveHead]
    split
    · exact ⟨high, _, rfl, le_refl _⟩
    · obtain ⟨upper, after, inserted, bound⟩ := ih (proper.trans (le_max_left high head.2)) aboveRest restProper
      exact ⟨upper, after, inserted, (le_max_left _ _).trans bound⟩

theorem insertRange_ends :
    ∀ range ∈ insertRange low high ranges, range.2 = high ∨ ∃ other ∈ ranges, range.2 = other.2 := by
  induction ranges generalizing low high with
  | nil => simp [insertRange]
  | cons head rest ih =>
    have weaken : ∀ stop, (∃ other ∈ rest, stop = other.2) → ∃ other ∈ head :: rest, stop = other.2 := by
      intro stop holder
      obtain ⟨other, member, same⟩ := holder
      exact ⟨other, List.mem_cons_of_mem _ member, same⟩
    rw [insertRange]
    split
    · refine List.forall_mem_cons.mpr ⟨.inr ⟨head, List.mem_cons_self, rfl⟩, ?_⟩
      exact fun range member => (ih range member).imp_right (weaken range.2)
    · split
      · refine List.forall_mem_cons.mpr ⟨.inl rfl, ?_⟩
        exact fun range member => .inr ⟨range, member, rfl⟩
      · intro range member
        cases ih range member with
        | inl same =>
          cases max_choice high head.2 with
          | inl larger => exact .inl (same.trans larger)
          | inr larger => exact .inr ⟨head, List.mem_cons_self, same.trans larger⟩
        | inr found => exact .inr (weaken range.2 found)

theorem insertRange_append (below : ∀ range ∈ before, range.2 < low) :
    insertRange low high (before ++ rest) = before ++ insertRange low high rest := by
  induction before with
  | nil => rfl
  | cons head tail ih =>
    obtain ⟨belowHead, belowTail⟩ := List.forall_mem_cons.mp below
    rw [List.cons_append, insertRange, if_pos belowHead, ih belowTail, List.cons_append]

theorem insertRange_before (proper : low ≤ high) (above : ∀ range ∈ ranges, high < range.1)
    (allProper : ∀ range ∈ ranges, range.1 ≤ range.2) : insertRange low high ranges = (low, high) :: ranges := by
  cases ranges with
  | nil => rfl
  | cons head rest =>
    have headAbove := above head List.mem_cons_self
    have apart : ¬ head.2 < low := not_lt.mpr ((proper.trans headAbove.le).trans (allProper head List.mem_cons_self))
    rw [insertRange, if_neg apart, if_pos headAbove]

theorem Occupied.insertRange (occupied : Occupied ranges) (proper : low < high) :
    Occupied (insertRange low high ranges) := by
  induction ranges generalizing low high with
  | nil => simpa [Occupied, Data.insertRange] using proper
  | cons head rest ih =>
    obtain ⟨headProper, restOccupied⟩ := List.forall_mem_cons.mp occupied
    rw [Data.insertRange]
    split
    · exact List.forall_mem_cons.mpr ⟨headProper, ih restOccupied proper⟩
    · split
      · exact List.forall_mem_cons.mpr ⟨proper, occupied⟩
      · exact ih restOccupied ((min_le_left _ _).trans_lt (proper.trans_le (le_max_left _ _)))

section CutBelow

theorem cutBelow_length_le (low : Value) (ranges : List (Value × Value)) :
    (cutBelow low ranges).length ≤ ranges.length := by
  induction ranges with
  | nil => exact Nat.le_refl 0
  | cons head rest ih =>
    rw [cutBelow]
    split
    · exact Nat.le_succ_of_le ih
    · exact Nat.le_refl _

theorem cutBelow_eq_self (occupied : Occupied ranges) (above : ∀ range ∈ ranges, low ≤ range.1) :
    cutBelow low ranges = ranges := by
  cases ranges with
  | nil => rfl
  | cons head rest =>
    have headAbove := above head List.mem_cons_self
    have headProper := occupied head List.mem_cons_self
    rw [cutBelow, if_neg (not_le.mpr (headAbove.trans_lt headProper)), max_eq_right headAbove]

theorem Separated.cutBelow (separated : Separated ranges) : Separated (cutBelow low ranges) := by
  induction ranges with
  | nil => exact separated_nil
  | cons head rest ih =>
    obtain ⟨headProper, headFirst, restSeparated⟩ := separated_cons.mp separated
    rw [Data.cutBelow]
    split
    · exact ih restSeparated
    · rename_i reaches
      exact separated_cons.mpr
        ⟨max_le (not_le.mp reaches).le headProper, headFirst, restSeparated⟩

theorem Occupied.cutBelow (occupied : Occupied ranges) : Occupied (cutBelow low ranges) := by
  induction ranges with
  | nil => exact occupied
  | cons head rest ih =>
    obtain ⟨headProper, restOccupied⟩ := List.forall_mem_cons.mp occupied
    rw [Data.cutBelow]
    split
    · exact ih restOccupied
    · rename_i reaches
      exact List.forall_mem_cons.mpr ⟨max_lt (not_le.mp reaches) headProper, restOccupied⟩

theorem cutBelow_le {bound : Value} (aboveAll : ∀ range ∈ ranges, range.2 ≤ bound) :
    ∀ range ∈ cutBelow low ranges, range.2 ≤ bound := by
  induction ranges with
  | nil => exact aboveAll
  | cons head rest ih =>
    obtain ⟨aboveHead, aboveRest⟩ := List.forall_mem_cons.mp aboveAll
    rw [Data.cutBelow]
    split
    · exact ih aboveRest
    · exact List.forall_mem_cons.mpr ⟨aboveHead, aboveRest⟩

theorem covered_cutBelow (separated : Separated ranges) (value : Value) :
    Covered (cutBelow low ranges) value ↔ low ≤ value ∧ Covered ranges value := by
  induction ranges with
  | nil => simp [cutBelow]
  | cons head rest ih =>
    obtain ⟨headProper, headFirst, restSeparated⟩ := separated_cons.mp separated
    rw [cutBelow]
    split
    · rename_i passed
      have outside : low ≤ value → ¬ (head.1 ≤ value ∧ value < head.2) :=
        fun kept inside => absurd (inside.2.trans_le passed) (not_lt.mpr kept)
      rw [ih restSeparated, covered_cons]
      constructor
      · exact fun both => ⟨both.1, .inr both.2⟩
      · exact fun both => ⟨both.1, both.2.resolve_left (outside both.1)⟩
    · rename_i reaches
      have later : Covered rest value → low ≤ value := by
        intro covered
        obtain ⟨range, member, lower, _⟩ := covered
        exact (not_le.mp reaches).le.trans ((headFirst range member).le.trans lower)
      rw [covered_cons, covered_cons, max_le_iff]
      constructor
      · intro either
        cases either with
        | inl inside => exact ⟨inside.1.1, .inl ⟨inside.1.2, inside.2⟩⟩
        | inr covered => exact ⟨later covered, .inr covered⟩
      · intro both
        obtain ⟨kept, either⟩ := both
        exact either.imp_left fun inside => ⟨⟨kept, inside.1⟩, inside.2⟩

end CutBelow

/-! Separated intervals that are not empty are the normal form of the values they cover, and the empty ones
among them are kept apart from it. -/

variable {others : List (Value × Value)}

/-- The range is empty. -/
def Vacant (range : Value × Value) : Prop := range.2 ≤ range.1

instance (range : Value × Value) : Decidable (Vacant range) := inferInstanceAs (Decidable (range.2 ≤ range.1))

def vacant (ranges : List (Value × Value)) : List (Value × Value) := ranges.filter (Vacant ·)

def solid (ranges : List (Value × Value)) : List (Value × Value) := ranges.filter (¬ Vacant ·)

theorem Separated.sublist (separated : Separated others) (sublist : List.Sublist ranges others) : Separated ranges :=
  ⟨separated.ordered.sublist sublist, fun range member => separated.proper range (sublist.subset member)⟩

theorem occupied_solid (ranges : List (Value × Value)) : Occupied (solid ranges) := by
  intro range member
  simpa [Vacant] using (List.mem_filter.mp member).2

theorem covered_solid (ranges : List (Value × Value)) (value : Value) :
    Covered (solid ranges) value ↔ Covered ranges value := by
  constructor
  · rintro ⟨range, member, inside⟩
    exact ⟨range, (List.mem_filter.mp member).1, inside⟩
  · rintro ⟨range, member, lower, upper⟩
    refine ⟨range, List.mem_filter.mpr ⟨member, ?_⟩, lower, upper⟩
    simpa [Vacant] using lt_of_le_of_lt lower upper

section

variable (separated : Separated (range :: rest))

include separated

theorem Separated.first_le
    (covered : Covered (range :: rest) value) : range.1 ≤ value := by
  obtain ⟨proper, following, _⟩ := separated_cons.mp separated
  obtain ⟨other, member, lower, _⟩ := covered
  rcases List.mem_cons.mp member with rfl | later
  · exact lower
  · exact le_of_lt (lt_of_le_of_lt proper (lt_of_lt_of_le (following other later) lower))

theorem Separated.not_covered_end : ¬ Covered (range :: rest) range.2 := by
  obtain ⟨_, following, _⟩ := separated_cons.mp separated
  rintro ⟨other, member, lower, upper⟩
  rcases List.mem_cons.mp member with rfl | later
  · exact absurd upper (lt_irrefl _)
  · exact absurd lower (not_le.mpr (following other later))

theorem Separated.covered_rest :
    Covered rest value ↔ Covered (range :: rest) value ∧ ¬ (range.1 ≤ value ∧ value < range.2) := by
  obtain ⟨_, following, _⟩ := separated_cons.mp separated
  rw [covered_cons]
  constructor
  · rintro ⟨other, member, lower, upper⟩
    refine ⟨.inr ⟨other, member, lower, upper⟩, fun inside => ?_⟩
    exact absurd (lt_of_lt_of_le (following other member) lower) (not_lt.mpr (le_of_lt inside.2))
  · rintro ⟨first | rest, outside⟩
    · exact absurd first outside
    · exact rest

end

theorem Separated.eq_of_covered (separated : Separated ranges) (occupied : Occupied ranges)
    (otherSeparated : Separated others) (otherOccupied : Occupied others)
    (same : ∀ value, Covered ranges value ↔ Covered others value) : ranges = others := by
  induction ranges generalizing others with
  | nil =>
    cases others with
    | nil => rfl
    | cons range rest =>
      have first : Covered (range :: rest) range.1 :=
        ⟨range, List.mem_cons_self, le_rfl, otherOccupied range List.mem_cons_self⟩
      exact absurd ((same _).mpr first) (covered_nil _)
  | cons range rest ih =>
    have first : Covered (range :: rest) range.1 :=
      ⟨range, List.mem_cons_self, le_rfl, occupied range List.mem_cons_self⟩
    cases others with
    | nil => exact absurd ((same _).mp first) (covered_nil _)
    | cons other after =>
      have firstCovered : Covered (other :: after) other.1 :=
        ⟨other, List.mem_cons_self, le_rfl, otherOccupied other List.mem_cons_self⟩
      have starts : range.1 = other.1 :=
        le_antisymm (separated.first_le ((same _).mpr firstCovered)) (otherSeparated.first_le ((same _).mp first))
      have stops : range.2 = other.2 := by
        apply le_antisymm
        · refine not_lt.mp fun longer => otherSeparated.not_covered_end ((same _).mp ?_)
          have lower : range.1 ≤ other.2 := by
            rw [starts]
            exact le_of_lt (otherOccupied other List.mem_cons_self)
          exact ⟨range, List.mem_cons_self, lower, longer⟩
        · refine not_lt.mp fun longer => separated.not_covered_end ((same _).mpr ?_)
          have lower : other.1 ≤ range.2 := by
            rw [← starts]
            exact le_of_lt (occupied range List.mem_cons_self)
          exact ⟨other, List.mem_cons_self, lower, longer⟩
      have equal : range = other := Prod.ext starts stops
      subst equal
      have sameRest := ih (separated_cons.mp separated).2.2 (List.forall_mem_cons.mp occupied).2
        (separated_cons.mp otherSeparated).2.2 (List.forall_mem_cons.mp otherOccupied).2 fun value => by
          rw [separated.covered_rest, otherSeparated.covered_rest, same]
      rw [sameRest]

theorem Separated.eq_of_covered_of_vacant (separated : Separated ranges) (otherSeparated : Separated others)
    (same : ∀ value, Covered ranges value ↔ Covered others value) (empty : vacant ranges = vacant others) :
    ranges = others := by
  have full : solid ranges = solid others := by
    refine Separated.eq_of_covered (separated.sublist List.filter_sublist) (occupied_solid ranges)
      (otherSeparated.sublist List.filter_sublist) (occupied_solid others) fun value => ?_
    rw [covered_solid, covered_solid, same]
  have parts : ∀ list : List (Value × Value), (vacant list ++ solid list).Perm list := by
    intro list
    simpa [vacant, solid] using List.filter_append_perm (fun range : Value × Value => decide (Vacant range)) list
  have perm : ranges.Perm others := by
    refine (parts ranges).symm.trans ?_
    rw [empty, full]
    exact parts others
  refine List.Perm.eq_of_pairwise ?_ separated.ordered otherSeparated.ordered perm
  intro first second member otherMember before after
  have forward := lt_of_le_of_lt (separated.proper first member) before
  have backward := lt_of_le_of_lt (otherSeparated.proper second otherMember) after
  exact absurd forward (not_lt.mpr (le_of_lt backward))

end Quiche.Data
