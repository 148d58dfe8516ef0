import Quiche.Data.Machine
import Quiche.Ranges.Insert

namespace Quiche

open Data

variable {ranges after : List (Nat × Nat)} {largest : Nat}

namespace InlineRangeSet

theorem removeUntilLoop_eq (separated : Separated ranges) (occupied : Occupied ranges) :
    removeUntilLoop largest ranges = cutBelow (largest + 1) ranges := by
  induction ranges with
  | nil => rfl
  | cons range rest ih =>
    obtain ⟨_, following, restSeparated⟩ := separated_cons.mp separated
    obtain ⟨_, restOccupied⟩ := List.forall_mem_cons.mp occupied
    rw [removeUntilLoop, cutBelow]
    by_cases passed : largest ≥ range.2
    · rw [if_pos passed, if_pos (Nat.le_succ_of_le passed)]
      exact ih restSeparated restOccupied
    · rw [if_neg passed]
      by_cases last : range.2 ≤ largest + 1
      · -- The range ends with `largest` itself, and all others lie past it.
        have ends : max (largest + 1) range.1 = range.2 := by
          have := separated.proper range List.mem_cons_self
          omega
        have kept : cutBelow (largest + 1) rest = rest := cutBelow_eq_self restOccupied fun later member => by
            have := following later member
            omega
        simp only [if_pos last, ends, if_true, kept]
      · have remains : ¬ max (largest + 1) range.1 = range.2 := by
          have := occupied range List.mem_cons_self
          omega
        simp only [if_neg last, if_neg remains]

end InlineRangeSet

namespace BTreeRangeSet

theorem removeUntilLoop_exists {set : BTreeRangeSet} (entries : set.inner.entries = ranges ++ after)
    (separated : Separated (ranges ++ after)) (occupied : Occupied (ranges ++ after))
    (starts : ∀ range ∈ ranges, range.1 ≤ largest) (above : ∀ range ∈ after, largest < range.1)
    (small : largest + 1 < 2 ^ 64) (room : set.inner.size ≤ set.capacity) :
    ∃ next, removeUntilLoop largest ranges set = some next ∧ next.capacity = set.capacity ∧
      next.inner.entries = cutBelow (largest + 1) (ranges ++ after) := by
  induction ranges generalizing set with
  | nil =>
    refine ⟨set, rfl, rfl, ?_⟩
    rw [entries]
    exact (cutBelow_eq_self occupied above).symm
  | cons range rest ih =>
    obtain ⟨_, following, restSeparated⟩ := separated_cons.mp separated
    obtain ⟨_, restOccupied⟩ := List.forall_mem_cons.mp occupied
    obtain ⟨_, restStarts⟩ := List.forall_mem_cons.mp starts
    have front : set.inner.entries = [] ++ range :: (rest ++ after) := entries
    have removed : (set.inner.remove range.1).entries = [] ++ (rest ++ after) := OrderedMap.remove_between front
    rw [List.nil_append] at removed
    have smaller : (set.inner.remove range.1).size < set.capacity := by
      simp only [OrderedMap.size, removed, entries, List.cons_append, List.length_cons] at room ⊢
      exact room
    simp only [removeUntilLoop, addU64_of_lt small, Option.bind_eq_bind, Option.bind_some]
    rw [List.cons_append, cutBelow]
    by_cases passed : range.2 ≤ largest + 1
    · rw [if_pos passed, if_neg (Nat.not_lt.mpr passed)]
      exact ih removed restSeparated restOccupied restStarts (Nat.le_of_lt smaller)
    · have last : rest = [] := by
        cases rest with
        | nil => rfl
        | cons next others =>
          have beyond := following next List.mem_cons_self
          have begins := restStarts next List.mem_cons_self
          omega
      subst last
      have reaches : largest + 1 ≤ range.2 := Nat.le_of_not_le passed
      let shorter : BTreeRangeSet := { set with inner := set.inner.remove range.1 }
      have shorterSeparated : Separated shorter.inner.entries := removed ▸ restSeparated
      have inserted := insert_entries shorterSeparated reaches smaller
      have begins : max (largest + 1) range.1 = largest + 1 :=
        Nat.max_eq_left (Nat.le_succ_of_le (starts range List.mem_cons_self))
      rw [if_neg passed, if_pos (Nat.lt_of_not_le passed), begins]
      refine ⟨_, rfl, rfl, ?_⟩
      rw [inserted, removed]
      exact insertRange_before reaches following restSeparated.proper

end BTreeRangeSet

namespace RangeSet

variable {set next : RangeSet}

theorem removeUntil_exists (separated : Separated set.iter) (occupied : Occupied set.iter)
    (small : largest + 1 < 2 ^ 64) (room : set.len ≤ set.capacity) :
    ∃ next, set.removeUntil largest = some next ∧ next.capacity = set.capacity ∧
      next.iter = cutBelow (largest + 1) set.iter := by
  cases set with
  | inline set =>
    have iter : (RangeSet.inline (set.removeUntil largest)).iter = cutBelow (largest + 1) set.inner :=
      InlineRangeSet.removeUntilLoop_eq separated occupied
    refine ⟨_, rfl, fixup_capacity _, ?_⟩
    rw [fixup_iter (iter ▸ separated.cutBelow)]
    exact iter
  | btree set =>
    obtain ⟨after, split, above⟩ := set.inner.rangeTo_split largest
    have starts : ∀ range ∈ set.inner.rangeTo largest, range.1 ≤ largest := by
      simp [OrderedMap.rangeTo]
    obtain ⟨next, removed, capacity, entries⟩ := BTreeRangeSet.removeUntilLoop_exists split
      (split ▸ separated) (split ▸ occupied) starts above small room
    rw [← split] at entries
    have iter : (RangeSet.btree next).iter = cutBelow (largest + 1) set.inner.entries := entries
    refine ⟨fixup (.btree next), ?_, (fixup_capacity _).trans capacity, ?_⟩
    · rw [removeUntil, BTreeRangeSet.removeUntil, removed, Option.map_some]
    · rw [fixup_iter (iter ▸ separated.cutBelow)]
      exact iter

inductive RangeCall where
  | insert (start stop : Nat)
  | pushItem (item : Nat)
  | removeUntil (largest : Nat)

namespace RangeCall

/-- Ranges are not empty, and all values lie below `2 ^ 62`. -/
def Valid : RangeCall → Prop
  | insert start stop => start < stop ∧ stop ≤ 2 ^ 62
  | pushItem item => item < 2 ^ 62
  | removeUntil largest => largest < 2 ^ 62

/-- The call adds the value. -/
def Adds : RangeCall → Nat → Prop
  | insert start stop, value => start ≤ value ∧ value < stop
  | pushItem item, value => value = item
  | removeUntil _, _ => False

/-- The call does not remove the value. -/
def Keeps : RangeCall → Nat → Prop
  | removeUntil largest, value => ¬ value ≤ largest
  | _, _ => True

end RangeCall

def rangeMachine : Machine RangeSet RangeCall where
  step set
    | .insert start stop => set.insert start stop
    | .pushItem item => set.pushItem item
    | .removeUntil largest => set.removeUntil largest

/-- The normal form of a set of values below `2 ^ 62`. -/
structure Normal (set : RangeSet) : Prop where
  bounded : set.Bounded (2 ^ 62)
  occupied : Occupied set.iter

theorem default_normal : default.Normal where
  bounded := default_bounded _
  occupied := by simp [default, iter, Occupied]

theorem Normal.insert {start stop : Nat} (normal : set.Normal) (proper : start < stop) (within : stop ≤ 2 ^ 62) :
    ∃ next, set.insert start stop = some next ∧ next.Normal ∧
      ∀ value, Covered next.iter value ↔ (start ≤ value ∧ value < stop) ∨ Covered set.iter value := by
  obtain ⟨next, inserted, bounded, iter⟩ := normal.bounded.insert (Nat.le_refl _) (Nat.le_of_lt proper) within
  refine ⟨next, inserted, ⟨bounded, ?_⟩, fun value => ?_⟩
  · rw [iter]
    exact normal.occupied.insertRange proper
  · rw [iter]
    exact covered_insertRange (Nat.le_of_lt proper) normal.bounded.separated.proper value

theorem Normal.removeUntil (normal : set.Normal) (small : largest < 2 ^ 62) :
    ∃ next, set.removeUntil largest = some next ∧ next.Normal ∧
      ∀ value, Covered next.iter value ↔ ¬ value ≤ largest ∧ Covered set.iter value := by
  have length := length_le_of_bounded normal.bounded.separated 0 (fun _ _ => Nat.zero_le _)
    normal.bounded.within
  have room : set.len ≤ set.capacity := by
    rw [normal.bounded.capacity, len, usizeMax]
    omega
  have successor : largest + 1 < 2 ^ 64 := by omega
  obtain ⟨next, removed, capacity, iter⟩ := removeUntil_exists normal.bounded.separated normal.occupied successor room
  refine ⟨next, removed, ⟨⟨capacity.trans normal.bounded.capacity, ?_, ?_⟩, ?_⟩, fun value => ?_⟩
  · rw [iter]
    exact normal.bounded.separated.cutBelow
  · rw [iter]
    exact cutBelow_le normal.bounded.within
  · rw [iter]
    exact normal.occupied.cutBelow
  · rw [iter, covered_cutBelow normal.bounded.separated, Nat.not_le, Nat.succ_le_iff]

theorem Normal.step (normal : set.Normal) {call : RangeCall} (valid : call.Valid) :
    ∃ next, rangeMachine.step set call = some next ∧ next.Normal ∧
      ∀ value, Covered next.iter value ↔ call.Adds value ∨ (call.Keeps value ∧ Covered set.iter value) := by
  cases call with
  | insert start stop =>
    obtain ⟨next, inserted, nextNormal, covered⟩ := normal.insert valid.1 valid.2
    exact ⟨next, inserted, nextNormal, by simpa [RangeCall.Adds, RangeCall.Keeps] using covered⟩
  | pushItem item =>
    have small : item < 2 ^ 62 := valid
    obtain ⟨next, inserted, nextNormal, covered⟩ := normal.insert (Nat.lt_succ_self item) (Nat.succ_le_of_lt small)
    refine ⟨next, ?_, nextNormal, fun value => ?_⟩
    · show set.pushItem item = some next
      rw [pushItem, addU64_of_lt (by omega), Option.bind_some, inserted]
    · have single : item ≤ value ∧ value < item + 1 ↔ value = item := by omega
      rw [covered, single]
      simp [RangeCall.Adds, RangeCall.Keeps]
  | removeUntil largest =>
    obtain ⟨next, removed, nextNormal, covered⟩ := normal.removeUntil valid
    exact ⟨next, removed, nextNormal, by simpa [RangeCall.Adds, RangeCall.Keeps] using covered⟩

/-- The value was added, and not removed since. -/
def Holds (calls : List RangeCall) (value : Nat) : Prop :=
  ∃ before call after, calls = before ++ call :: after ∧ call.Adds value ∧ ∀ later ∈ after, later.Keeps value

theorem holds_cons {call : RangeCall} {calls : List RangeCall} {value : Nat} :
    Holds (call :: calls) value ↔ (call.Adds value ∧ ∀ later ∈ calls, later.Keeps value) ∨ Holds calls value := by
  constructor
  · intro holds
    obtain ⟨before, adding, after, split, adds, keeps⟩ := holds
    cases before with
    | nil =>
      cases split
      exact .inl ⟨adds, keeps⟩
    | cons first before =>
      cases split
      exact .inr ⟨before, adding, after, rfl, adds, keeps⟩
  · intro either
    cases either with
    | inl first => exact ⟨[], call, calls, rfl, first⟩
    | inr later =>
      obtain ⟨before, adding, after, split, adds, keeps⟩ := later
      exact ⟨call :: before, adding, after, by rw [split, List.cons_append], adds, keeps⟩

theorem Normal.run (normal : set.Normal) {calls : List RangeCall} (valid : ∀ call ∈ calls, call.Valid) :
    ∃ final, rangeMachine.run set calls = some final ∧ final.Normal ∧ ∀ value, Covered final.iter value ↔
        Holds calls value ∨ ((∀ call ∈ calls, call.Keeps value) ∧ Covered set.iter value) := by
  induction calls generalizing set with
  | nil => exact ⟨set, rfl, normal, by simp [Holds]⟩
  | cons call calls ih =>
    obtain ⟨validCall, validRest⟩ := List.forall_mem_cons.mp valid
    obtain ⟨next, stepped, nextNormal, nextCovered⟩ := normal.step validCall
    obtain ⟨final, completed, finalNormal, finalCovered⟩ := ih nextNormal validRest
    refine ⟨final, by simp only [Machine.run, stepped, Option.bind_some, completed], finalNormal, ?_⟩
    intro value
    rw [finalCovered, nextCovered, holds_cons, List.forall_mem_cons]
    tauto

/-- A default set holds exactly the values that were inserted and not removed since, in
separate, non-empty, ascending ranges. -/
theorem ranges_refine_values (calls : List RangeCall) (valid : ∀ call ∈ calls, call.Valid) :
    ∃ set, rangeMachine.run default calls = some set ∧ (∀ range ∈ set.iter, range.1 < range.2) ∧
      set.iter.Pairwise (fun left right => left.2 < right.1) ∧
      ∀ value, (∃ range ∈ set.iter, range.1 ≤ value ∧ value < range.2) ↔ Holds calls value := by
  obtain ⟨set, completed, normal, covered⟩ := default_normal.run valid
  refine ⟨set, completed, normal.occupied, normal.bounded.separated.ordered, fun value => ?_⟩
  have started : ¬ Covered default.iter value := covered_nil value
  rw [← Covered, covered, or_iff_left fun both => started both.2]

/-- Five ranges make the set a map, and a removal makes it a vector again. -/
theorem ranges_refine_values_switching : ∃ set, rangeMachine.run default
        [.insert 1 3, .insert 5 7, .pushItem 9, .insert 12 15, .pushItem 20, .removeUntil 12] = some set ∧
      (∀ range ∈ set.iter, range.1 < range.2) ∧ set.iter.Pairwise (fun left right => left.2 < right.1) ∧
      ∀ value, (∃ range ∈ set.iter, range.1 ≤ value ∧ value < range.2) ↔
        Holds [.insert 1 3, .insert 5 7, .pushItem 9, .insert 12 15, .pushItem 20, .removeUntil 12]
          value := ranges_refine_values _ (by simp [RangeCall.Valid])

variable {start stop item limit : Nat}

/-- A vector is given up for a map before it holds more than a few ranges. -/
def Short : RangeSet → Prop
  | .inline set => set.inner.length < maxInlineCapacity
  | .btree _ => True

theorem fixup_short (bound : ∀ vector, set = .inline vector → vector.inner.length ≤ maxInlineCapacity) :
    set.fixup.Short := by
  cases set with
  | inline set =>
    rw [fixup]
    split
    · trivial
    · rename_i other
      exact Nat.lt_of_le_of_ne (bound set rfl) other
  | btree set =>
    rw [fixup]
    split
    · rename_i few
      exact Nat.lt_of_le_of_lt few (by decide)
    · trivial

/-- Values below `2 ^ 62` in at most `limit` ranges. -/
structure Capped (set : RangeSet) (limit : Nat) : Prop where
  capacity : set.capacity = limit
  short : set.Short
  room : set.len ≤ limit
  separated : Separated set.iter
  occupied : Occupied set.iter
  within : ∀ range ∈ set.iter, range.2 ≤ 2 ^ 62

theorem new_capped (limit : Nat) : (new limit).Capped limit where
  capacity := rfl
  short := by simp [new, Short, maxInlineCapacity]
  room := Nat.zero_le _
  separated := separated_nil
  occupied := by simp [new, iter, Occupied]
  within := by simp [new, iter]

/-- The range is inserted; a full set drops ranges for it. -/
structure Inserted (set next : RangeSet) (start stop : Nat) : Prop where
  capacity : next.capacity = set.capacity
  short : next.Short
  room : next.len ≤ set.capacity
  sublist : next.iter.Sublist (insertRange start stop set.iter)
  exact_ : set.len < set.capacity → next.iter = insertRange start stop set.iter

theorem Capped.inserted (capped : set.Capped limit) (large : maxInlineCapacity ≤ limit)
    (proper : start ≤ stop) : ∃ next, set.insert start stop = some next ∧ Inserted set next start stop := by
  obtain ⟨same, short, room, separated, occupied, within⟩ := capped
  subst same
  have ordered := separated.insertRange proper
  have grown : (insertRange start stop set.iter).length ≤ set.len + 1 := insertRange_length_le start stop set.iter
  cases set with
  | inline set =>
    have fewer : set.inner.length < set.capacity := Nat.lt_of_lt_of_le short large
    have filled := InlineRangeSet.insert_eq start stop separated (Nat.ne_of_lt fewer)
    have left : (fixup (.inline { set with inner := insertRange start stop set.inner })).iter =
        insertRange start stop set.inner := fixup_iter ordered
    refine ⟨fixup (.inline { set with inner := insertRange start stop set.inner }), ?_,
      ⟨fixup_capacity _, ?_, ?_, ?_, fun _ => left⟩⟩
    · rw [insert, filled, Option.map_some]
    · apply fixup_short
      intro vector same
      cases same
      exact Nat.le_trans grown short
    · rw [len, left]
      exact Nat.le_trans grown fewer
    · rw [left]
      exact List.Sublist.refl _
  | btree set =>
    have nonzero : 0 < set.capacity := Nat.lt_of_lt_of_le (by decide) large
    obtain ⟨sublist, size⟩ := BTreeRangeSet.insert_entries_full separated proper nonzero room
    have left : (fixup (.btree (set.insert start stop))).iter = (set.insert start stop).inner.entries :=
      fixup_iter ⟨ordered.ordered.sublist sublist, fun range member => ordered.proper range (sublist.subset member)⟩
    refine ⟨_, rfl, ⟨fixup_capacity _, fixup_short (fun _ other => by cases other), ?_, ?_, fun free => ?_⟩⟩
    · rw [len, left]
      exact size
    · rw [left]
      exact sublist
    · rw [left]
      exact BTreeRangeSet.insert_entries separated proper free

theorem Capped.pushItem (capped : set.Capped limit) (large : maxInlineCapacity ≤ limit) (small : item < 2 ^ 62) :
    ∃ next, set.pushItem item = some next ∧ next.Capped limit ∧
      (∀ value, Covered next.iter value → value = item ∨ Covered set.iter value) ∧
      (set.len < limit → ∀ value, value = item ∨ Covered set.iter value → Covered next.iter value) := by
  obtain ⟨next, inserted, result⟩ := capped.inserted large (Nat.le_succ item)
  have proper : item < item + 1 := Nat.lt_succ_self item
  have ordered := capped.separated.insertRange (Nat.le_of_lt proper)
  have single (value : Nat) : item ≤ value ∧ value < item + 1 ↔ value = item := by omega
  have covered (value : Nat) :
      Covered (insertRange item (item + 1) set.iter) value ↔ value = item ∨ Covered set.iter value := by
    rw [covered_insertRange (Nat.le_of_lt proper) capped.separated.proper, single]
  have within : ∀ range ∈ insertRange item (item + 1) set.iter, range.2 ≤ 2 ^ 62 :=
    insertRange_le (Nat.succ_le_of_lt small) capped.within
  refine ⟨next, ?_, ⟨result.capacity.trans capped.capacity, result.short, ?_, ?_, ?_, ?_⟩, ?_, ?_⟩
  · rw [RangeSet.pushItem, addU64_of_lt (by omega), Option.bind_some, inserted]
  · rw [← capped.capacity]
    exact result.room
  · exact ⟨ordered.ordered.sublist result.sublist,
      fun range member => ordered.proper range (result.sublist.subset member)⟩
  · exact fun range member => capped.occupied.insertRange proper range (result.sublist.subset member)
  · exact fun range member => within range (result.sublist.subset member)
  · intro value holder
    obtain ⟨range, member, inside⟩ := holder
    exact (covered value).mp ⟨range, result.sublist.subset member, inside⟩
  · intro free value either
    rw [result.exact_ (capped.capacity ▸ free)]
    exact (covered value).mpr either

theorem Capped.removeUntil (capped : set.Capped limit) (small : largest < 2 ^ 62) :
    ∃ next, set.removeUntil largest = some next ∧ next.Capped limit ∧ next.len ≤ set.len ∧
      ∀ value, Covered next.iter value ↔ ¬ value ≤ largest ∧ Covered set.iter value := by
  obtain ⟨next, removed, same, iter⟩ := removeUntil_exists capped.separated capped.occupied
    (by omega : largest + 1 < 2 ^ 64) (capped.capacity ▸ capped.room)
  have fewer : next.len ≤ set.len := by
    rw [len, iter]
    exact cutBelow_length_le _ _
  refine ⟨next, removed, ⟨same.trans capped.capacity, ?_, Nat.le_trans fewer capped.room, ?_, ?_, ?_⟩, fewer,
    fun value => ?_⟩
  · have short := capped.short
    cases set with
    | inline set =>
      cases removed
      apply fixup_short
      intro vector same
      cases same
      have cut : (set.removeUntil largest).inner = cutBelow (largest + 1) set.inner :=
        InlineRangeSet.removeUntilLoop_eq capped.separated capped.occupied
      rw [cut]
      exact Nat.le_trans (cutBelow_length_le _ _) (Nat.le_of_lt short)
    | btree set =>
      obtain ⟨left, _, rfl⟩ := Option.map_eq_some_iff.mp removed
      exact fixup_short fun _ other => by cases other
  · rw [iter]
    exact capped.separated.cutBelow
  · rw [iter]
    exact capped.occupied.cutBelow
  · rw [iter]
    exact cutBelow_le capped.within
  · rw [iter, covered_cutBelow capped.separated, Nat.not_le, Nat.succ_le_iff]

theorem covered_last {last : Nat} (found : set.iter.getLast?.bind (fun range => subChecked range.2 1) = some last)
    (occupied : Occupied set.iter) : Covered set.iter last := by
  obtain ⟨range, same, less⟩ := Option.bind_eq_some_iff.mp found
  obtain ⟨bound, rfl⟩ := subChecked_spec less
  have member := List.mem_of_getLast? same
  have proper := occupied range member
  exact ⟨range, member, by omega, by omega⟩

end RangeSet

end Quiche
