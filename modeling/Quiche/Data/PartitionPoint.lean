import Mathlib.Data.List.Basic

namespace Quiche.Data

/-! Where a sequence stops satisfying a predicate, by binary search: on a slice, and on
a ring buffer whose contents lie in two slices.

The search returns a position of any sequence; only on a sequence with all values that
satisfy the predicate in front is it the number of these. -/

variable {Value : Type}

def holdsAt (pred : Value → Bool) (values : List Value) (place : Nat) : Bool := values[place]?.any pred

/-- Halves the `size` positions from `base` on until one is left. Every turn takes at
least one position away, which bounds the turns. -/
def narrow (pred : Value → Bool) (values : List Value) : Nat → Nat → Nat → Nat
  | 0, base, _ => base
  | fuel + 1, base, size =>
    if size ≤ 1 then base
    else
      let half := size / 2
      let mid := base + half
      narrow pred values fuel (if holdsAt pred values mid then mid else base) (size - half)

def partitionPoint (pred : Value → Bool) (values : List Value) : Nat :=
  let base := narrow pred values values.length 0 values.length
  if holdsAt pred values base then base + 1 else base

/-- The search on a ring buffer that wraps around after `wrap` values. -/
def ringPartitionPoint (pred : Value → Bool) (wrap : Nat) (values : List Value) : Nat :=
  let front := values.take wrap
  let back := values.drop wrap
  if holdsAt pred back 0 then partitionPoint pred back + front.length
  else partitionPoint pred front

/-- The first `count` values satisfy the predicate, and the others do not. -/
structure Partitioned (pred : Value → Bool) (values : List Value) (count : Nat) : Prop where
  count_le : count ≤ values.length
  before : ∀ value ∈ values.take count, pred value = true
  after : ∀ value ∈ values.drop count, pred value = false

variable {pred : Value → Bool} {values : List Value} {count : Nat}

section

variable (partitioned : Partitioned pred values count)

include partitioned

theorem Partitioned.holdsAt_iff (place : Nat) :
    holdsAt pred values place = true ↔ place < count := by
  rw [holdsAt]
  constructor
  · intro holds
    obtain ⟨value, found, satisfies⟩ := (Option.any_eq_true _ _).mp holds
    by_contra later
    have member : value ∈ values.drop count := by
      apply List.mem_of_getElem? (i := place - count)
      rw [List.getElem?_drop, Nat.add_sub_of_le (Nat.not_lt.mp later), found]
    rw [partitioned.after value member] at satisfies
    contradiction
  · intro earlier
    have inside : place < values.length := Nat.lt_of_lt_of_le earlier partitioned.count_le
    have found := List.getElem?_eq_getElem inside
    have member : values[place] ∈ values.take count := by
      apply List.mem_of_getElem? (i := place)
      rw [List.getElem?_take_of_lt earlier, found]
    rw [found, Option.any_some]
    exact partitioned.before _ member

theorem narrow_spec {fuel base size : Nat}
    (positive : 1 ≤ size) (enough : size ≤ fuel + 1) (below : base = 0 ∨ base < count) (above : count ≤ base + size) :
    let last := narrow pred values fuel base size
    (last = 0 ∨ last < count) ∧ count ≤ last + 1 := by
  induction fuel generalizing base size with
  | zero =>
    have single : size = 1 := by omega
    exact ⟨below, single ▸ above⟩
  | succ fuel ih =>
    rw [narrow]
    split
    · exact ⟨below, by omega⟩
    · have holds := partitioned.holdsAt_iff (base + size / 2)
      have half : 1 ≤ size / 2 := by omega
      apply ih (by omega) (by omega)
      · split
        · rename_i low
          exact .inr (holds.mp low)
        · exact below
      · split
        · omega
        · rename_i high
          have : ¬ base + size / 2 < count := fun low => high (holds.mpr low)
          omega

theorem Partitioned.partitionPoint_eq :
    partitionPoint pred values = count := by
  have bound := partitioned.count_le
  have holds := partitioned.holdsAt_iff
  rw [partitionPoint]
  cases Nat.eq_zero_or_pos values.length with
  | inl empty =>
    have nowhere : ¬ holdsAt pred values 0 = true := by
      rw [holds 0]
      omega
    rw [empty, narrow, if_neg nowhere]
    omega
  | inr positive =>
    obtain ⟨below, above⟩ := narrow_spec partitioned positive (Nat.le_succ values.length)
      (.inl rfl) (by omega)
    generalize narrow pred values values.length 0 values.length = last at below above
    have lastHolds := holds last
    by_cases low : last < count
    · simp only [if_pos (lastHolds.mpr low)]
      omega
    · simp only [if_neg (fun holds => low (lastHolds.mp holds))]
      omega

theorem Partitioned.take {wrap : Nat}
    (later : count ≤ wrap) : Partitioned pred (values.take wrap) count where
  count_le := by
    rw [List.length_take]
    exact Nat.le_min.mpr ⟨later, partitioned.count_le⟩
  before := by
    rw [List.take_take, Nat.min_eq_left later]
    exact partitioned.before
  after := by
    intro value member
    rw [List.drop_take] at member
    exact partitioned.after value (List.mem_of_mem_take member)

theorem Partitioned.drop {wrap : Nat}
    (earlier : wrap ≤ count) : Partitioned pred (values.drop wrap) (count - wrap) where
  count_le := by
    rw [List.length_drop]
    exact Nat.sub_le_sub_right partitioned.count_le wrap
  before := by
    intro value member
    rw [← List.drop_take] at member
    exact partitioned.before value (List.mem_of_mem_drop member)
  after := by
    rw [List.drop_drop, Nat.add_sub_of_le earlier]
    exact partitioned.after

theorem Partitioned.ringPartitionPoint_eq (wrap : Nat) :
    ringPartitionPoint pred wrap values = count := by
  have bound := partitioned.count_le
  have starts : holdsAt pred (values.drop wrap) 0 = true ↔ wrap < count := by
    rw [← partitioned.holdsAt_iff, holdsAt, holdsAt, List.getElem?_drop, Nat.add_zero]
  rw [ringPartitionPoint]
  by_cases earlier : wrap < count
  · simp only [if_pos (starts.mpr earlier), (partitioned.drop (Nat.le_of_lt earlier)).partitionPoint_eq,
      List.length_take]
    omega
  · simp only [if_neg (fun holds => earlier (starts.mp holds)),
      (partitioned.take (Nat.not_lt.mp earlier)).partitionPoint_eq]

end

section Search

/-- `binary_search_by`: the position of a match, or the one at which it would go. -/
def binarySearchBy (cmp : Value → Ordering) (values : List Value) : Nat :=
  let base := narrow (cmp · != .gt) values values.length 0 values.length
  if holdsAt (cmp · == .lt) values base then base + 1 else base

/-- The search on a ring buffer that wraps around after `wrap` values. -/
def ringBinarySearchBy (cmp : Value → Ordering) (wrap : Nat) (values : List Value) : Nat :=
  let front := values.take wrap
  let back := values.drop wrap
  if holdsAt (cmp · == .eq) back 0 then front.length
  else if holdsAt (cmp · == .lt) back 0 then binarySearchBy cmp back + front.length
  else binarySearchBy cmp front

/-- The first `count` values are too small, at most one matches, and the others are too large. -/
structure Sought (cmp : Value → Ordering) (values : List Value) (count upto : Nat) : Prop where
  small : Partitioned (cmp · == .lt) values count
  notLarge : Partitioned (cmp · != .gt) values upto
  close : upto ≤ count + 1

variable {cmp : Value → Ordering} {upto : Nat}

section

variable (sought : Sought cmp values count upto)

include sought

theorem Sought.count_le : count ≤ upto := by
  by_contra fewer
  have small := (sought.small.holdsAt_iff upto).mpr (Nat.not_le.mp fewer)
  have large := mt (sought.notLarge.holdsAt_iff upto).mp (Nat.lt_irrefl upto)
  obtain ⟨value, found, less⟩ := (Option.any_eq_true _ _).mp small
  apply large
  rw [holdsAt, found, Option.any_some]
  rw [beq_iff_eq] at less
  rw [less]
  rfl

theorem Sought.binarySearchBy_eq : binarySearchBy cmp values = count := by
  have ordered := sought.count_le
  have close := sought.close
  have bound := sought.notLarge.count_le
  have holds := sought.small.holdsAt_iff
  rw [binarySearchBy]
  cases Nat.eq_zero_or_pos values.length with
  | inl empty =>
    have nowhere : ¬ holdsAt (cmp · == .lt) values 0 = true := by
      rw [holds 0]
      omega
    rw [empty, narrow, if_neg nowhere]
    omega
  | inr positive =>
    obtain ⟨below, above⟩ := narrow_spec sought.notLarge positive (Nat.le_succ values.length)
      (.inl rfl) (by omega)
    generalize narrow (cmp · != .gt) values values.length 0 values.length = last at below above
    by_cases low : last < count
    · simp only [if_pos ((holds last).mpr low)]
      omega
    · simp only [if_neg (fun small => low ((holds last).mp small))]
      omega

theorem Sought.ringBinarySearchBy_eq (wrap : Nat) :
    ringBinarySearchBy cmp wrap values = count := by
  have ordered := sought.count_le
  have close := sought.close
  have bound := sought.notLarge.count_le
  have starts : ∀ pred : Value → Bool, holdsAt pred (values.drop wrap) 0 = holdsAt pred values wrap := by
    intro pred
    rw [holdsAt, holdsAt, List.getElem?_drop, Nat.add_zero]
  have small := sought.small.holdsAt_iff wrap
  have notLarge := sought.notLarge.holdsAt_iff wrap
  rw [ringBinarySearchBy, starts, starts]
  by_cases match_ : holdsAt (cmp · == .eq) values wrap = true
  · obtain ⟨value, found, equal⟩ := (Option.any_eq_true _ _).mp match_
    rw [beq_iff_eq] at equal
    rw [holdsAt, found, Option.any_some, equal] at small notLarge
    have above : ¬ wrap < count := fun less => absurd (small.mpr less) (by decide)
    have below : wrap < upto := notLarge.mp (by decide)
    rw [if_pos match_, List.length_take]
    omega
  · rw [if_neg match_]
    by_cases low : wrap < count
    · have back : Sought cmp (values.drop wrap) (count - wrap) (upto - wrap) :=
        ⟨sought.small.drop (Nat.le_of_lt low), sought.notLarge.drop (by omega), by omega⟩
      rw [if_pos (small.mpr low), back.binarySearchBy_eq, List.length_take]
      omega
    · have reached : upto ≤ wrap := by
        by_contra short
        obtain ⟨value, found, unlarge⟩ := (Option.any_eq_true _ _).mp (notLarge.mpr (Nat.not_le.mp short))
        rw [holdsAt, found, Option.any_some] at small match_
        have unsmall : ¬ (cmp value == .lt) = true := fun less => low (small.mp less)
        cases order : cmp value <;> rw [order] at match_ unsmall unlarge <;> contradiction
      have front : Sought cmp (values.take wrap) count upto :=
        ⟨sought.small.take (Nat.not_lt.mp low), sought.notLarge.take reached, close⟩
      rw [if_neg (fun less => low (small.mp less)), front.binarySearchBy_eq]

end

theorem partitioned_of_sorted {less : Value → Value → Prop} (sorted : values.Pairwise less)
    (closed : ∀ left right, less left right → pred right = true → pred left = true) :
    Partitioned pred values (values.takeWhile pred).length := by
  induction values with
  | nil => exact ⟨Nat.le_refl _, by simp, by simp⟩
  | cons head rest ih =>
    obtain ⟨first, sorted⟩ := List.pairwise_cons.mp sorted
    have later := ih sorted
    by_cases holds : pred head = true
    · rw [List.takeWhile_cons_of_pos holds, List.length_cons]
      refine ⟨Nat.succ_le_succ later.count_le, ?_, later.after⟩
      intro value member
      rw [List.take_succ_cons] at member
      rcases List.mem_cons.mp member with rfl | member
      · exact holds
      · exact later.before value member
    · rw [List.takeWhile_cons_of_neg holds, List.length_nil]
      refine ⟨Nat.zero_le _, by simp, ?_⟩
      intro value member
      rw [List.drop_zero] at member
      apply Bool.eq_false_iff.mpr
      intro satisfied
      rcases List.mem_cons.mp member with rfl | member
      · exact holds satisfied
      · exact holds (closed head value (first value member) satisfied)

theorem sought_of_sorted {key : Value → Nat} (sorted : values.Pairwise (key · < key ·)) (target : Nat) :
    ∃ count upto, Sought (fun value => compare (key value) target) values count upto := by
  refine ⟨_, _, partitioned_of_sorted sorted ?_, partitioned_of_sorted sorted ?_, ?_⟩
  · intro left right less small
    rw [beq_iff_eq, Nat.compare_eq_lt] at small ⊢
    omega
  · intro left right less small
    rw [bne_iff_ne, ne_eq, Nat.compare_eq_gt] at small ⊢
    omega
  · induction values with
    | nil => exact Nat.zero_le _
    | cons head rest ih =>
      obtain ⟨first, sorted⟩ := List.pairwise_cons.mp sorted
      rcases Nat.lt_trichotomy (key head) target with less | equal | greater
      · rw [List.takeWhile_cons_of_pos (by rw [Nat.compare_eq_lt.mpr less]; rfl),
          List.takeWhile_cons_of_pos (by rw [Nat.compare_eq_lt.mpr less]; rfl)]
        exact Nat.succ_le_succ (ih sorted)
      · have none : rest.takeWhile (fun value => compare (key value) target != .gt) = [] := by
          cases rest with
          | nil => rfl
          | cons next rest =>
            have later := first next List.mem_cons_self
            exact List.takeWhile_cons_of_neg (by rw [Nat.compare_eq_gt.mpr (by omega)]; decide)
        rw [List.takeWhile_cons_of_pos (by rw [Nat.compare_eq_eq.mpr equal]; rfl), none,
          List.takeWhile_cons_of_neg (by rw [Nat.compare_eq_eq.mpr equal]; decide)]
        exact Nat.le_refl _
      · rw [List.takeWhile_cons_of_neg (by rw [Nat.compare_eq_gt.mpr greater]; decide)]
        exact Nat.zero_le _

end Search

end Quiche.Data
