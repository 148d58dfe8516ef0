import Mathlib.Data.List.TakeWhile
import Quiche.Data.Intervals
import Quiche.Ranges

namespace Quiche

open Data

variable {start stop low high : Nat} {before rest ranges : List (Nat × Nat)}

namespace InlineRangeSet

theorem mergeFollowing_eq (low stop : Nat) (separated : Separated rest) (lower : ∀ range ∈ rest, low ≤ range.1) :
    insertRange low stop rest = (low, (mergeFollowing stop rest).1) :: (mergeFollowing stop rest).2 := by
  induction rest generalizing stop with
  | nil => rfl
  | cons range rest ih =>
    obtain ⟨s, e⟩ := range
    obtain ⟨proper, _, restSeparated⟩ := separated_cons.mp separated
    obtain ⟨lowerRange, lowerRest⟩ := List.forall_mem_cons.mp lower
    have reaches : ¬ e < low := Nat.not_lt.mpr (Nat.le_trans lowerRange proper)
    rw [insertRange, if_neg reaches, mergeFollowing]
    by_cases after : stop < s
    · rw [if_pos after, if_pos after]
    · rw [if_neg after, if_neg after, Nat.min_eq_left lowerRange, Nat.max_comm, ih _ restSeparated lowerRest]

/-- The new range touches none of the stored ones. -/
structure Apart (set : InlineRangeSet) (start stop : Nat) (before after : List (Nat × Nat)) : Prop where
  ahead : ∀ range ∈ after.head?, stop < range.1
  inserted : insertRange start stop set.inner = before ++ (start, stop) :: after
  stored : set.insert start stop = if set.inner.length = set.capacity then
      match before with
      | [] => none
      | _ :: kept => some { set with inner := kept ++ (start, stop) :: after }
    else some { set with inner := before ++ (start, stop) :: after }

/-- The new range touches one that is stored, so that nothing is dropped for it. -/
structure Touches (set : InlineRangeSet) (start stop : Nat) (range : Nat × Nat) : Prop where
  ends : start ≤ range.2
  starts : range.1 ≤ stop
  length_le : (insertRange start stop set.inner).length ≤ set.inner.length
  stored : set.insert start stop = some { set with inner := insertRange start stop set.inner }

theorem insert_parts {set : InlineRangeSet} (start stop : Nat) (separated : Separated set.inner) :
    ∃ before after, set.inner = before ++ after ∧ (∀ range ∈ before, range.2 < start) ∧
      (Apart set start stop before after ∨ ∃ range ∈ after.head?, Touches set start stop range) := by
  have split := List.takeWhile_append_dropWhile (p := fun range : Nat × Nat => start > range.2)
    (l := set.inner)
  have skipped : ∀ range ∈ set.inner.takeWhile fun range => start > range.2, range.2 < start :=
    fun range member => by simpa using List.mem_takeWhile_imp member
  have stopped := List.head?_dropWhile_not (fun range : Nat × Nat => start > range.2) set.inner
  have stored : set.insert start stop = set.insert start stop := rfl
  conv at stored => rhs; rw [insert]
  generalize set.inner.takeWhile (fun range => start > range.2) = before at split skipped stored
  generalize set.inner.dropWhile (fun range => start > range.2) = after at split stopped stored
  have inserted : insertRange start stop set.inner = before ++ insertRange start stop after := by
    rw [← split, insertRange_append skipped]
  refine ⟨before, after, split.symm, skipped, ?_⟩
  cases after with
  | nil =>
    have whole : set.inner = before := by rw [← split, List.append_nil]
    refine .inl ⟨by simp, inserted, ?_⟩
    rw [whole] at stored ⊢
    exact stored
  | cons range rest =>
    obtain ⟨s, e⟩ := range
    have reaches : ¬ e < start := by simpa using stopped
    have tail : Separated ((s, e) :: rest) := by
      rw [← split] at separated
      exact separated.append_right
    obtain ⟨proper, following, restSeparated⟩ := separated_cons.mp tail
    have lower : (if start < s then start else s) = min start s := by
      split <;> omega
    rw [insertRange, if_neg reaches] at inserted
    by_cases ahead : stop < s
    · rw [if_pos ahead] at inserted
      simp only [if_pos ahead] at stored
      exact .inl ⟨by simpa using ahead, inserted, stored⟩
    · rw [if_neg ahead] at inserted
      simp only [if_neg ahead, lower] at stored
      refine .inr ⟨(s, e), rfl, ⟨Nat.not_lt.mp reaches, Nat.not_lt.mp ahead, ?_, ?_⟩⟩
      · have bound := insertRange_length_le (min start s) (max stop e) rest
        rw [inserted, ← split, List.length_append, List.length_append]
        exact Nat.add_le_add_left bound _
      · rw [inserted, stored]
        by_cases grows : stop > e
        · have merged := mergeFollowing_eq (min start s) stop restSeparated
            fun range member => Nat.le_trans (Nat.min_le_right _ _)
              (Nat.le_trans proper (Nat.le_of_lt (following range member)))
          simp only [if_pos grows, Nat.max_eq_left (Nat.le_of_lt grows), merged]
        · have kept : insertRange (min start s) e rest = (min start s, e) :: rest :=
            insertRange_before (Nat.le_trans (Nat.min_le_right _ _) proper) following
              restSeparated.proper
          simp only [if_neg grows, Nat.max_eq_right (Nat.not_lt.mp grows), kept]

theorem insert_eq {set : InlineRangeSet} (start stop : Nat) (separated : Separated set.inner)
    (room : set.inner.length ≠ set.capacity) :
    set.insert start stop = some { set with inner := insertRange start stop set.inner } := by
  obtain ⟨before, after, _, _, apart | ⟨range, _, touches⟩⟩ := insert_parts start stop separated
  · rw [apart.stored, if_neg room, apart.inserted]
  · exact touches.stored

end InlineRangeSet

namespace BTreeRangeSet

variable {inner : OrderedMap Nat Nat}

/-- The new range is joined with the one before it, and what is left to join lies behind. -/
structure Preceding (inner : OrderedMap Nat Nat) (start stop : Nat)
    (next : OrderedMap Nat Nat) (low high : Nat) (before after : List (Nat × Nat)) : Prop where
  entries : next.entries = before ++ after
  size_le : next.size ≤ inner.size
  separated : Separated after
  low_le : low ≤ start
  stop_le : stop ≤ high
  below : ∀ range ∈ before, range.1 < low
  above : ∀ range ∈ after, start < range.1
  /-- Ranges that end past the new one lie before all that follow. -/
  reach : high = stop ∨ ∀ range ∈ after, high < range.1
  inserted : insertRange start stop inner.entries = before ++ insertRange low high after

theorem rangeOverlaps_preceding {range : Nat × Nat} (before : range.1 ≤ start)
    (proper : start ≤ stop) : rangeOverlaps range (start, stop) = true ↔ start ≤ range.2 := by
  simp only [rangeOverlaps, Bool.or_eq_true, Bool.and_eq_true, decide_eq_true_eq]
  omega

theorem absorbPreceding_exists (separated : Separated inner.entries) (proper : start ≤ stop) :
    ∃ next low high before after, absorbPreceding inner (start, stop) = (next, low, high) ∧
      Preceding inner start stop next low high before after := by
  obtain ⟨after, split, above⟩ := inner.rangeTo_split start
  have member : ∀ range ∈ inner.rangeTo start, range.1 ≤ start := by simp [OrderedMap.rangeTo]
  rw [absorbPreceding, prevTo]
  cases found : (inner.rangeTo start).getLast? with
  | none =>
    rw [List.getLast?_eq_none_iff] at found
    rw [found, List.nil_append] at split
    refine ⟨inner, start, stop, [], after, rfl, split, Nat.le_refl _, split ▸ separated,
      Nat.le_refl _, Nat.le_refl _, by simp, above, .inl rfl, ?_⟩
    rw [split, List.nil_append]
  | some range =>
    obtain ⟨before, same⟩ := List.getLast?_eq_some_iff.mp found
    have starts : range.1 ≤ start := member range (by simp [same])
    rw [same, List.append_assoc, List.singleton_append] at split
    rw [split] at separated
    obtain ⟨_, fromRange, across⟩ := List.pairwise_append.mp separated.ordered
    have beforeRange : ∀ other ∈ before, other.2 < range.1 :=
      fun other found => across other found range List.mem_cons_self
    obtain ⟨rangeProper, afterRange, afterSeparated⟩ := separated_cons.mp separated.append_right
    have beforeProper : ∀ other ∈ before, other.1 ≤ other.2 :=
      fun other found => separated.proper other (List.mem_append_left _ found)
    have overlaps := rangeOverlaps_preceding starts proper
    by_cases touches : start ≤ range.2
    · simp only [if_pos (overlaps.mpr touches), Nat.min_eq_right starts]
      have removed := OrderedMap.remove_between split
      refine ⟨inner.remove range.1, range.1, max stop range.2, before, after, rfl, removed, ?_,
        afterSeparated, starts, Nat.le_max_left _ _, ?_, above, ?_, ?_⟩
      · simp only [OrderedMap.size, removed, split, List.length_append, List.length_cons]
        omega
      · exact fun other found =>
          Nat.lt_of_le_of_lt (beforeProper other found) (beforeRange other found)
      · cases Nat.le_total range.2 stop with
        | inl inside => exact .inl (Nat.max_eq_left inside)
        | inr beyond =>
          rw [Nat.max_eq_right beyond]
          exact .inr afterRange
      · have belowStart : ∀ other ∈ before, other.2 < start :=
          fun other found => Nat.lt_of_lt_of_le (beforeRange other found) starts
        rw [split, insertRange_append belowStart, insertRange, if_neg (Nat.not_lt.mpr touches),
          if_neg (Nat.not_lt.mpr (Nat.le_trans starts proper)), Nat.min_eq_right starts]
    · simp only [if_neg (fun overlap => touches (overlaps.mp overlap))]
      have belowStart : ∀ other ∈ before ++ [range], other.2 < start := by
        intro other found
        cases List.mem_append.mp found with
        | inl found => exact Nat.lt_of_lt_of_le (beforeRange other found) starts
        | inr found =>
          rw [List.mem_singleton.mp found]
          exact Nat.not_le.mp touches
      have whole : inner.entries = (before ++ [range]) ++ after := by simp [split]
      refine ⟨inner, start, stop, before ++ [range], after, rfl, whole, Nat.le_refl _,
        afterSeparated, Nat.le_refl _, Nat.le_refl _, ?_, above, .inl rfl, ?_⟩
      · intro other found
        refine Nat.lt_of_le_of_lt (separated.proper other ?_) (belowStart other found)
        rw [← split, whole]
        exact List.mem_append_left _ found
      · rw [whole, insertRange_append belowStart]

theorem absorbFollowing_exists {after : List (Nat × Nat)} {fuel : Nat}
    (entries : inner.entries = before ++ after) (separated : Separated after)
    (startLow : low ≤ start) (stopHigh : stop ≤ high) (proper : low ≤ high)
    (below : ∀ range ∈ before, range.1 < low) (above : ∀ range ∈ after, start < range.1)
    (reach : high = stop ∨ ∀ range ∈ after, high < range.1) (enough : after.length < fuel) :
    ∃ next upper rest, absorbFollowing (start, stop) fuel inner low high = (next, low, upper) ∧
      next.entries = before ++ rest ∧ low ≤ upper ∧ (∀ range ∈ rest, upper < range.1) ∧
      insertRange low high after = (low, upper) :: rest := by
  induction after generalizing inner high fuel with
  | nil =>
    obtain ⟨fuel, rfl⟩ := Nat.exists_eq_succ_of_ne_zero (Nat.ne_zero_of_lt enough)
    have found : nextTo inner low = none := OrderedMap.head?_rangeFrom entries below (by simp)
    exact ⟨inner, high, [], by simp only [absorbFollowing, found], entries, proper, by simp, rfl⟩
  | cons range after ih =>
    obtain ⟨fuel, rfl⟩ := Nat.exists_eq_succ_of_ne_zero (Nat.ne_zero_of_lt enough)
    obtain ⟨rangeProper, following, afterSeparated⟩ := separated_cons.mp separated
    obtain ⟨aboveRange, aboveAfter⟩ := List.forall_mem_cons.mp above
    have found : nextTo inner low = some range := OrderedMap.head?_rangeFrom entries below
        fun other member => Nat.le_trans startLow (Nat.le_of_lt (above other member))
    have removed := OrderedMap.remove_between entries
    have reaches : ¬ range.2 < low := by omega
    have lower : min low range.1 = low := by omega
    have fuelLeft : after.length < fuel := by simpa using enough
    rw [insertRange, if_neg reaches, lower, absorbFollowing, found]
    dsimp only
    by_cases ahead : stop < range.1
    · have outside : (contains (start, stop) range.1 && contains (start, stop) range.2) = false := by
        simp only [contains, Bool.and_eq_false_iff, decide_eq_false_iff_not]
        omega
      have apart : rangeOverlaps range (start, stop) = false := by
        simp only [rangeOverlaps, Bool.or_eq_false_iff, Bool.and_eq_false_iff, decide_eq_false_iff_not]
        omega
      have past : high < range.1 := by
        cases reach with
        | inl same => omega
        | inr past => exact past range List.mem_cons_self
      rw [outside, apart, if_pos past]
      refine ⟨inner, high, range :: after, rfl, entries, proper, ?_, rfl⟩
      refine List.forall_mem_cons.mpr ⟨past, fun other member => ?_⟩
      exact Nat.lt_trans past (Nat.lt_of_le_of_lt rangeProper (following other member))
    · have merges : ¬ high < range.1 := by omega
      rw [if_neg merges]
      by_cases inside : range.2 < stop
      · have contained : (contains (start, stop) range.1 && contains (start, stop) range.2) = true := by
          simp only [contains, Bool.and_eq_true, decide_eq_true_eq]
          omega
        have upper : max high range.2 = high := by omega
        rw [contained, upper, if_pos rfl]
        exact ih removed afterSeparated stopHigh proper aboveAfter
          (reach.imp_right fun past other member => past other (List.mem_cons_of_mem _ member)) fuelLeft
      · have notInside : (contains (start, stop) range.1 && contains (start, stop) range.2) = false := by
          simp only [contains, Bool.and_eq_false_iff, decide_eq_false_iff_not]
          omega
        have overlaps : rangeOverlaps range (start, stop) = true := by
          simp only [rangeOverlaps, Bool.or_eq_true, Bool.and_eq_true, decide_eq_true_eq]
          omega
        have upper : max high range.2 = range.2 := by
          cases reach with
          | inl same => omega
          | inr past =>
            have := past range List.mem_cons_self
            omega
        rw [notInside, overlaps, upper, lower, if_neg (by simp), if_neg (by simp)]
        exact ih removed afterSeparated (by omega) (by omega) aboveAfter (.inr following) fuelLeft

variable {set : BTreeRangeSet}

section

variable (separated : Separated set.inner.entries)

include separated

theorem insert_parts (proper : start ≤ stop) :
    ∃ low upper before rest, ∃ last : OrderedMap Nat Nat,
      (set.insert start stop).inner = (if last.size ≥ set.capacity then last.popFirst else last).insert low upper ∧
      last.entries = before ++ rest ∧ last.size ≤ set.inner.size ∧ low ≤ start ∧ stop ≤ upper ∧
      (∀ range ∈ before, range.1 < low) ∧ (∀ range ∈ rest, low < range.1) ∧
      insertRange start stop set.inner.entries = before ++ (low, upper) :: rest := by
  obtain ⟨middle, low, high, before, after, preceded, preceding⟩ := absorbPreceding_exists separated proper
  have lowHigh : low ≤ high := Nat.le_trans preceding.low_le (Nat.le_trans proper preceding.stop_le)
  have enough : after.length < middle.size + 1 := by
    simp only [OrderedMap.size, preceding.entries, List.length_append]
    omega
  obtain ⟨last, upper, rest, followed, entries, ordered, past, merged⟩ :=
    absorbFollowing_exists preceding.entries preceding.separated preceding.low_le preceding.stop_le
      lowHigh preceding.below preceding.above preceding.reach enough
  have shorter : rest.length ≤ after.length := by
    have bound := insertRange_length_le low high after
    rw [merged] at bound
    exact Nat.le_of_succ_le_succ bound
  have smaller : last.size ≤ set.inner.size := by
    have size := preceding.size_le
    simp only [OrderedMap.size, entries, preceding.entries, List.length_append] at size ⊢
    omega
  have reaches : stop ≤ upper := by
    obtain ⟨top, others, first, bound⟩ := insertRange_first lowHigh
      (fun range member => Nat.le_trans preceding.low_le (Nat.le_of_lt (preceding.above range member)))
      preceding.separated.proper
    rw [merged] at first
    cases first
    exact Nat.le_trans preceding.stop_le bound
  refine ⟨low, upper, before, rest, last, ?_, entries, smaller, preceding.low_le, reaches, preceding.below,
    fun range member => Nat.lt_of_le_of_lt ordered (past range member), ?_⟩
  · simp only [insert, preceded, followed]
  · rw [preceding.inserted, merged]

theorem insert_entries
    (proper : start ≤ stop) (room : set.inner.size < set.capacity) :
    (set.insert start stop).inner.entries = insertRange start stop set.inner.entries := by
  obtain ⟨low, upper, before, rest, last, stored, entries, smaller, _, _, below, above, inserted⟩ :=
    insert_parts separated proper
  rw [stored, if_neg (Nat.not_le.mpr (Nat.lt_of_le_of_lt smaller room)), inserted]
  exact OrderedMap.insert_between entries below above

theorem insert_entries_full
    (proper : start ≤ stop) (nonzero : 0 < set.capacity) (room : set.inner.size ≤ set.capacity) :
    (set.insert start stop).inner.entries.Sublist (insertRange start stop set.inner.entries) ∧
      (set.insert start stop).inner.size ≤ set.capacity := by
  obtain ⟨low, upper, before, rest, last, stored, entries, smaller, _, _, below, above, inserted⟩ :=
    insert_parts separated proper
  rw [stored, inserted]
  by_cases full : last.size ≥ set.capacity
  · rw [if_pos full]
    have bound : last.entries.length ≤ set.capacity := Nat.le_trans smaller room
    cases before with
    | nil =>
      have popped : last.popFirst.entries = [] ++ rest.tail := congrArg List.tail entries
      have left : (last.popFirst.insert low upper).entries = [] ++ (low, upper) :: rest.tail :=
        OrderedMap.insert_between popped (by simp) fun range member => above range (List.mem_of_mem_tail member)
      rw [OrderedMap.size, left]
      refine ⟨.cons_cons _ (List.tail_sublist rest), ?_⟩
      rw [entries, List.nil_append] at bound
      rw [List.nil_append, List.length_cons, List.length_tail]
      omega
    | cons first before =>
      have popped : last.popFirst.entries = before ++ rest := congrArg List.tail entries
      have left : (last.popFirst.insert low upper).entries = before ++ (low, upper) :: rest :=
        OrderedMap.insert_between popped (fun range member => below range (List.mem_cons_of_mem _ member)) above
      rw [OrderedMap.size, left]
      refine ⟨.cons _ (List.Sublist.refl _), ?_⟩
      rw [entries] at bound
      simp only [List.cons_append, List.length_cons, List.length_append] at bound ⊢
      omega
  · rw [if_neg full]
    have left : (last.insert low upper).entries = before ++ (low, upper) :: rest :=
      OrderedMap.insert_between entries below above
    rw [OrderedMap.size, left]
    refine ⟨List.Sublist.refl _, ?_⟩
    have fewer : last.entries.length < set.capacity := Nat.not_le.mp full
    rw [entries] at fewer
    simp only [List.length_cons, List.length_append] at fewer ⊢
    omega

end

end BTreeRangeSet

namespace RangeSet

variable {set next : RangeSet}

theorem toMap_entries (separated : Separated ranges) : (toMap ranges).entries = ranges := by
  have grown : ∀ (map : OrderedMap Nat Nat), (∀ entry ∈ map.entries, ∀ range ∈ ranges, entry.1 < range.1) →
      (ranges.foldl (fun map range => map.insert range.1 range.2) map).entries = map.entries ++ ranges := by
    induction ranges with
    | nil => simp
    | cons range rest ih =>
      intro map below
      obtain ⟨proper, following, restSeparated⟩ := separated_cons.mp separated
      have inserted : (map.insert range.1 range.2).entries = map.entries ++ [range] :=
        OrderedMap.insert_between (List.append_nil _).symm
          (fun entry member => below entry member range List.mem_cons_self) (by simp)
      rw [List.foldl_cons, ih restSeparated, inserted, List.append_assoc, List.singleton_append]
      intro entry member later found
      rw [inserted] at member
      cases List.mem_append.mp member with
      | inl member => exact below entry member later (List.mem_cons_of_mem _ found)
      | inr member =>
        rw [List.mem_singleton.mp member]
        exact Nat.lt_of_le_of_lt proper (following later found)
  exact grown .empty (by simp [OrderedMap.empty])

theorem fixup_iter (separated : Separated set.iter) : set.fixup.iter = set.iter := by
  cases set with
  | inline set =>
    rw [fixup]
    split
    · exact toMap_entries separated
    · rfl
  | btree set =>
    rw [fixup]
    split <;> rfl

theorem fixup_capacity (set : RangeSet) : set.fixup.capacity = set.capacity := by
  cases set <;> rw [fixup] <;> split <;> rfl

theorem insert_exists (separated : Separated set.iter) (proper : start ≤ stop) (room : set.len < set.capacity) :
    ∃ next, set.insert start stop = some next ∧ next.capacity = set.capacity ∧
      next.iter = insertRange start stop set.iter := by
  have inserted := separated.insertRange proper
  cases set with
  | inline set =>
    have filled := InlineRangeSet.insert_eq start stop separated (Nat.ne_of_lt room)
    refine ⟨fixup (.inline { set with inner := insertRange start stop set.inner }), ?_,
      fixup_capacity _, fixup_iter inserted⟩
    rw [insert, filled, Option.map_some]
  | btree set =>
    have entries := BTreeRangeSet.insert_entries separated proper room
    refine ⟨_, rfl, fixup_capacity _, ?_⟩
    rw [fixup_iter (by rw [iter, entries]; exact inserted)]
    exact entries

theorem length_le_of_bounded {bound : Nat} (separated : Separated ranges) (low : Nat)
    (above : ∀ range ∈ ranges, low ≤ range.1) (within : ∀ range ∈ ranges, range.2 ≤ bound) :
    ranges.length ≤ bound + 1 - low := by
  induction ranges generalizing low with
  | nil => exact Nat.zero_le _
  | cons range rest ih =>
    obtain ⟨proper, following, restSeparated⟩ := separated_cons.mp separated
    obtain ⟨aboveRange, _⟩ := List.forall_mem_cons.mp above
    obtain ⟨withinRange, withinRest⟩ := List.forall_mem_cons.mp within
    have shorter := ih restSeparated (range.2 + 1) following withinRest
    rw [List.length_cons]
    omega

/-- A set of default capacity whose ranges end at `bound` at the latest. -/
structure Bounded (set : RangeSet) (bound : Nat) : Prop where
  capacity : set.capacity = usizeMax
  separated : Separated set.iter
  within : ∀ range ∈ set.iter, range.2 ≤ bound

variable {bound : Nat}

theorem default_bounded (bound : Nat) : default.Bounded bound where
  capacity := rfl
  separated := separated_nil
  within := by simp [default, iter]

theorem Bounded.mono (bounded : set.Bounded bound) {larger : Nat} (grown : bound ≤ larger) : set.Bounded larger where
  capacity := bounded.capacity
  separated := bounded.separated
  within := fun range member => Nat.le_trans (bounded.within range member) grown

theorem Bounded.insert (bounded : set.Bounded bound) (small : bound ≤ 2 ^ 62) (proper : start ≤ stop)
    (within : stop ≤ bound) : ∃ next, set.insert start stop = some next ∧ next.Bounded bound ∧
      next.iter = insertRange start stop set.iter := by
  have length := length_le_of_bounded bounded.separated 0 (fun _ _ => Nat.zero_le _) bounded.within
  have room : set.len < set.capacity := by
    rw [bounded.capacity, len, usizeMax]
    omega
  obtain ⟨next, inserted, capacity, iter⟩ := insert_exists bounded.separated proper room
  refine ⟨next, inserted, ⟨capacity.trans bounded.capacity, ?_, ?_⟩, iter⟩
  · rw [iter]
    exact bounded.separated.insertRange proper
  · rw [iter]
    exact insertRange_le within bounded.within

end RangeSet

end Quiche
