import Quiche.Ranges.Remove

namespace Quiche

open Data

variable {ranges : List (Nat × Nat)} {largest start stop : Nat}

namespace InlineRangeSet

theorem removeUntilLoop_separated (largest : Nat) (separated : Separated ranges) :
    Separated (removeUntilLoop largest ranges) ∧ (removeUntilLoop largest ranges).length ≤ ranges.length := by
  induction ranges with
  | nil => exact ⟨separated_nil, Nat.le_refl _⟩
  | cons range rest ih =>
    obtain ⟨proper, following, restSeparated⟩ := separated_cons.mp separated
    obtain ⟨kept, shorter⟩ := ih restSeparated
    rw [removeUntilLoop]
    split
    · exact ⟨kept, Nat.le_succ_of_le shorter⟩
    rename_i reaches
    dsimp only
    split
    · exact ⟨restSeparated, Nat.le_succ _⟩
    · have within : max (largest + 1) range.1 ≤ range.2 := by omega
      exact ⟨separated_cons.mpr ⟨within, following, restSeparated⟩, Nat.le_refl _⟩

end InlineRangeSet

namespace BTreeRangeSet

variable {set next : BTreeRangeSet}

/-- The ranges are separated, and no more than the capacity. -/
structure Formed (set : BTreeRangeSet) : Prop where
  separated : Separated set.inner.entries
  nonzero : 0 < set.capacity
  room : set.inner.size ≤ set.capacity

theorem Formed.insert (formed : set.Formed) (proper : start ≤ stop) : (set.insert start stop).Formed := by
  obtain ⟨sublist, room⟩ := insert_entries_full formed.separated proper formed.nonzero formed.room
  exact ⟨(formed.separated.insertRange proper).sublist sublist, formed.nonzero, room⟩

theorem Formed.remove (formed : set.Formed) (key : Nat) : Formed { set with inner := set.inner.remove key } where
  separated := formed.separated.sublist List.filter_sublist
  nonzero := formed.nonzero
  room := (List.length_filter_le _ _).trans formed.room

theorem Formed.removeUntilLoop (formed : set.Formed)
    (removed : BTreeRangeSet.removeUntilLoop largest ranges set = some next) :
    next.Formed ∧ next.capacity = set.capacity := by
  induction ranges generalizing set with
  | nil =>
    cases removed
    exact ⟨formed, rfl⟩
  | cons range rest ih =>
    obtain ⟨start, added, removed⟩ := Option.bind_eq_some_iff.mp removed
    have without := formed.remove range.1
    split at removed
    · rename_i longer
      have kept := ih (without.insert (Nat.le_of_lt longer)) removed
      exact kept
    · have kept := ih without removed
      exact kept

end BTreeRangeSet

namespace RangeSet

variable {set next other : RangeSet} {calls otherCalls : List RangeCall}

def isInline : RangeSet → Bool
  | .inline _ => true
  | .btree _ => false

/-- An unlimited set, stored in the way that its length asks for. -/
structure Formed (set : RangeSet) : Prop where
  separated : Separated set.iter
  capacity : set.capacity = usizeMax
  room : set.len ≤ usizeMax
  atMost : set.isInline = true → set.len ≤ 3
  atLeast : set.isInline = false → 3 ≤ set.len

theorem default_formed : default.Formed where
  separated := separated_nil
  capacity := rfl
  room := Nat.zero_le _
  atMost := fun _ => Nat.zero_le _
  atLeast := fun other => by cases other

theorem fixup_formed (separated : Separated set.iter) (capacity : set.capacity = usizeMax) (room : set.len ≤ usizeMax)
    (few : set.isInline = true → set.len ≤ 4) : set.fixup.Formed := by
  have iter := fixup_iter separated
  have sameLen : set.fixup.len = set.len := by rw [len, len, iter]
  have sized : (set.fixup.isInline = true → set.len ≤ 3) ∧ (set.fixup.isInline = false → 3 ≤ set.len) := by
    cases set with
    | inline vector =>
      have bound : vector.inner.length ≤ 4 := few rfl
      rw [fixup]
      split
      · rename_i full
        exact ⟨(fun other => by cases other), fun _ => Nat.le_trans (by decide) (Nat.le_of_eq full.symm)⟩
      · rename_i unequal
        exact ⟨fun _ => Nat.le_of_lt_succ (Nat.lt_of_le_of_ne bound unequal), fun other => by cases other⟩
    | btree map =>
      rw [fixup]
      split
      · rename_i small
        exact ⟨fun _ => Nat.le_trans small (by decide), fun other => by cases other⟩
      · rename_i large
        exact ⟨(fun other => by cases other), fun _ => Nat.not_le.mp large⟩
  constructor
  · rw [iter]
    exact separated
  · rw [fixup_capacity, capacity]
  · rw [sameLen]
    exact room
  · rw [sameLen]
    exact sized.1
  · rw [sameLen]
    exact sized.2

theorem Formed.insert (formed : set.Formed) (proper : start ≤ stop) (inserted : set.insert start stop = some next) :
    next.Formed := by
  obtain ⟨separated, capacity, room, few, _⟩ := formed
  cases set with
  | inline vector =>
    have short : vector.inner.length ≤ 3 := few rfl
    have spare : vector.inner.length ≠ vector.capacity := by
      rw [show vector.capacity = usizeMax from capacity, usizeMax]
      omega
    rw [RangeSet.insert, InlineRangeSet.insert_eq start stop separated spare, Option.map_some] at inserted
    cases inserted
    have longer := insertRange_length_le start stop vector.inner
    have four : (insertRange start stop vector.inner).length ≤ 4 := by omega
    exact fixup_formed (separated.insertRange proper) capacity (four.trans (by decide)) fun _ => four
  | btree map =>
    cases inserted
    have nonzero : 0 < map.capacity := by
      rw [show map.capacity = usizeMax from capacity]
      decide
    have kept := BTreeRangeSet.Formed.insert ⟨separated, nonzero, room.trans (Nat.le_of_eq capacity.symm)⟩ proper
    exact fixup_formed kept.separated capacity (kept.room.trans (Nat.le_of_eq capacity)) fun other => by cases other

theorem Formed.removeUntil (formed : set.Formed) (removed : set.removeUntil largest = some next) : next.Formed := by
  obtain ⟨separated, capacity, room, few, _⟩ := formed
  cases set with
  | inline vector =>
    cases removed
    have short : vector.inner.length ≤ 3 := few rfl
    obtain ⟨kept, shorter⟩ := InlineRangeSet.removeUntilLoop_separated largest separated
    have four := (shorter.trans short).trans (by decide : 3 ≤ 4)
    exact fixup_formed kept capacity (four.trans (by decide)) fun _ => four
  | btree map =>
    obtain ⟨left, looped, fixed⟩ := Option.map_eq_some_iff.mp removed
    have nonzero : 0 < map.capacity := by
      rw [show map.capacity = usizeMax from capacity]
      decide
    have formed : map.Formed := ⟨separated, nonzero, room.trans (Nat.le_of_eq capacity.symm)⟩
    obtain ⟨kept, same⟩ := formed.removeUntilLoop looped
    have unbounded : left.capacity = usizeMax := same.trans capacity
    rw [← fixed]
    exact fixup_formed kept.separated unbounded (kept.room.trans (Nat.le_of_eq unbounded)) fun other => by cases other

/-- An inserted range does not end before it starts. -/
def RangeCall.Proper : RangeCall → Prop
  | .insert start stop => start ≤ stop
  | _ => True

theorem Formed.step (formed : set.Formed) {call : RangeCall} (proper : call.Proper)
    (stepped : rangeMachine.step set call = some next) : next.Formed := by
  cases call with
  | insert start stop => exact formed.insert proper stepped
  | pushItem item =>
    obtain ⟨after, added, inserted⟩ := Option.bind_eq_some_iff.mp stepped
    have successor : item ≤ after := by
      rw [addU64] at added
      split at added
      · cases added
        exact Nat.le_succ item
      · cases added
    exact formed.insert successor inserted
  | removeUntil largest => exact formed.removeUntil stepped

theorem run_formed (proper : ∀ call ∈ calls, call.Proper) (reached : rangeMachine.run default calls = some set) :
    set.Formed :=
  rangeMachine.run_keeps_of_guarded (fun _ _ _ formed admitted stepped => Formed.step formed (And.right admitted) stepped)
    default_formed ((Machine.guarded_true _ calls).and_forall proper) reached

theorem Formed.eq_iff (formed : set.Formed) (otherFormed : other.Formed) :
    set = other ↔ set.isInline = other.isInline ∧ set.iter = other.iter := by
  constructor
  · rintro rfl
    exact ⟨rfl, rfl⟩
  · rintro ⟨same, ranges⟩
    have capacity := formed.capacity.trans otherFormed.capacity.symm
    cases set with
    | inline vector =>
      cases other with
      | inline otherVector =>
        obtain ⟨inner, limit⟩ := vector
        obtain ⟨otherInner, otherLimit⟩ := otherVector
        cases (show inner = otherInner from ranges)
        cases (show limit = otherLimit from capacity)
        rfl
      | btree otherMap => cases same
    | btree map =>
      cases other with
      | inline otherVector => cases same
      | btree otherMap =>
        obtain ⟨⟨entries, ordered⟩, limit⟩ := map
        obtain ⟨⟨otherEntries, otherOrdered⟩, otherLimit⟩ := otherMap
        cases (show entries = otherEntries from ranges)
        cases (show limit = otherLimit from capacity)
        rfl

theorem Formed.eq_iff_of_covered (formed : set.Formed) (otherFormed : other.Formed)
    (same : ∀ value, Covered set.iter value ↔ Covered other.iter value) :
    set = other ↔ set.isInline = other.isInline ∧ vacant set.iter = vacant other.iter := by
  rw [formed.eq_iff otherFormed]
  refine and_congr_right fun _ => ⟨fun ranges => congrArg vacant ranges, fun empty => ?_⟩
  exact formed.separated.eq_of_covered_of_vacant otherFormed.separated same empty

/-- Two sets of the same values, built by any calls, are equal exactly when both are vectors or both are maps and
both hold the same empty ranges. -/
theorem eq_iff_isInline (proper : ∀ call ∈ calls, call.Proper) (otherProper : ∀ call ∈ otherCalls, call.Proper)
    (reached : rangeMachine.run default calls = some set)
    (otherReached : rangeMachine.run default otherCalls = some other)
    (same : ∀ value, Covered set.iter value ↔ Covered other.iter value) :
    set = other ↔ set.isInline = other.isInline ∧ vacant set.iter = vacant other.iter :=
  (run_formed proper reached).eq_iff_of_covered (run_formed otherProper otherReached) same

def rising : List RangeCall := [.insert 2 3, .insert 4 5, .insert 6 7]

def falling : List RangeCall := [.insert 0 1, .insert 2 3, .insert 4 5, .insert 6 7, .removeUntil 0]

theorem eq_iff_isInline_rising :
    ∃ set other, rangeMachine.run default rising = some set ∧ rangeMachine.run default falling = some other ∧
      (set = other ↔ set.isInline = other.isInline ∧ vacant set.iter = vacant other.iter) := by
  obtain ⟨set, reached, other, otherReached, iter⟩ : ∃ set ∈ rangeMachine.run default rising,
      ∃ other ∈ rangeMachine.run default falling, set.iter = other.iter := by
    decide +kernel
  refine ⟨set, other, reached, otherReached, eq_iff_isInline ?_ ?_ reached otherReached fun value => by rw [iter]⟩
  · simp [rising, RangeCall.Proper]
  · simp [falling, RangeCall.Proper]

/-- Three ranges are a vector after the one history and a map after the other. -/
theorem same_values_not_eq : ¬ ∀ calls otherCalls set other, rangeMachine.run default calls = some set →
      rangeMachine.run default otherCalls = some other →
      (∀ value, Covered set.iter value ↔ Covered other.iter value) → set = other := by
  intro claimed
  obtain ⟨set, reached, iter, vector⟩ : ∃ set, rangeMachine.run default rising = some set ∧
      set.iter = [(2, 3), (4, 5), (6, 7)] ∧ set.isInline = true := ⟨_, rfl, by decide, by decide⟩
  obtain ⟨other, otherReached, fallen, map⟩ : ∃ other, rangeMachine.run default falling = some other ∧
      other.iter = [(2, 3), (4, 5), (6, 7)] ∧ other.isInline = false := ⟨_, rfl, by decide +kernel, by decide +kernel⟩
  have equal := claimed rising falling set other reached otherReached fun value => by rw [iter, fallen]
  rw [equal, map] at vector
  cases vector

end RangeSet

end Quiche
