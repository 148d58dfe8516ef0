import Quiche.Ranges.Remove

namespace Quiche

open Data

/-- The smallest range goes when there is one too many. -/
def evict (capacity : Nat) (ranges : List (Nat × Nat)) : List (Nat × Nat) :=
  if capacity < ranges.length then ranges.tail else ranges

/-- There is no room left, and a range that ends at `stop` lies in front of all others. -/
def Front (capacity stop : Nat) (ranges : List (Nat × Nat)) : Prop :=
  ranges.length = capacity ∧ ∀ range ∈ ranges.head?, stop < range.1

instance (capacity stop : Nat) (ranges : List (Nat × Nat)) : Decidable (Front capacity stop ranges) :=
  inferInstanceAs (Decidable (_ ∧ _))

variable {start stop : Nat} {ranges : List (Nat × Nat)}

theorem evict_cons {capacity : Nat} {range : Nat × Nat} (full : ranges.length = capacity) :
    evict capacity (range :: ranges) = ranges := by
  rw [evict, if_pos (by rw [List.length_cons]; omega), List.tail_cons]

theorem evict_of_le {capacity : Nat} (few : ranges.length ≤ capacity) : evict capacity ranges = ranges :=
  if_neg (Nat.not_lt.mpr few)

theorem Front.inserted {capacity : Nat} (front : Front capacity stop ranges) (separated : Separated ranges)
    (proper : start ≤ stop) : insertRange start stop ranges = (start, stop) :: ranges := by
  cases ranges with
  | nil => rfl
  | cons range rest =>
    obtain ⟨nonempty, following, _⟩ := separated_cons.mp separated
    have ahead := front.2 range rfl
    refine insertRange_before proper ?_ separated.proper
    refine List.forall_mem_cons.mpr ⟨ahead, fun other member => ?_⟩
    have beyond := following other member
    omega

namespace InlineRangeSet

theorem insert_evict {set : InlineRangeSet} (separated : Separated set.inner) (proper : start < stop)
    (room : set.inner.length ≤ set.capacity) :
    Front set.capacity stop set.inner ∧ set.insert start stop = none ∨ ¬ Front set.capacity stop set.inner ∧
        set.insert start stop = some { set with inner := evict set.capacity (insertRange start stop set.inner) } := by
  obtain ⟨before, after, split, below, apart | ⟨range, first, touches⟩⟩ := insert_parts start stop separated
  · obtain ⟨ahead, inserted, stored⟩ := apart
    by_cases full : set.inner.length = set.capacity
    · rw [if_pos full] at stored
      cases before with
      | nil =>
        rw [List.nil_append] at split
        exact .inl ⟨⟨full, split ▸ ahead⟩, stored⟩
      | cons first kept =>
        have skipped := below first List.mem_cons_self
        have whole := separated.proper first (split ▸ List.mem_cons_self)
        refine .inr ⟨?_, ?_⟩
        · intro front
          have impossible := front.2 first (by rw [split]; rfl)
          omega
        · rw [stored, inserted]
          rw [split, List.cons_append, List.length_cons] at full
          have whole : (kept ++ (start, stop) :: after).length = set.capacity := by
            rw [← full, List.length_append, List.length_cons, List.length_append]
            rfl
          rw [List.cons_append, evict_cons whole]
    · refine .inr ⟨fun front => full front.1, ?_⟩
      have grown := insertRange_length_le start stop set.inner
      rw [insert_eq start stop separated full, evict_of_le (by omega)]
  · refine .inr ⟨?_, ?_⟩
    · intro front
      have starts := touches.starts
      cases before with
      | nil =>
        have impossible := front.2 range (by rw [split]; exact first)
        omega
      | cons first kept =>
        have skipped := below first List.mem_cons_self
        have whole := separated.proper first (split ▸ List.mem_cons_self)
        have impossible := front.2 first (by rw [split]; rfl)
        omega
    · rw [touches.stored, evict_of_le (Nat.le_trans touches.length_le room)]

end InlineRangeSet

namespace BTreeRangeSet

theorem insert_evict {set : BTreeRangeSet} (separated : Separated set.inner.entries) (proper : start < stop)
    (room : set.inner.size ≤ set.capacity) :
    (set.insert start stop).inner.entries = evict set.capacity (insertRange start stop set.inner.entries) ↔
      ¬ Front set.capacity stop set.inner.entries := by
  obtain ⟨low, upper, before, rest, last, stored, entries, smaller, lower, reaches, below, above, inserted⟩ :=
    insert_parts separated (Nat.le_of_lt proper)
  have size : last.size = before.length + rest.length := by rw [OrderedMap.size, entries, List.length_append]
  have grown := insertRange_length_le start stop set.inner.entries
  by_cases full : last.size ≥ set.capacity
  · rw [stored, if_pos full, inserted]
    cases before with
    | nil =>
      have popped : last.popFirst.entries = [] ++ rest.tail := congrArg List.tail entries
      have left : (last.popFirst.insert low upper).entries = [] ++ (low, upper) :: rest.tail :=
        OrderedMap.insert_between popped (by simp) fun range member => above range (List.mem_of_mem_tail member)
      have whole : rest.length = set.capacity := by
        rw [List.length_nil, Nat.zero_add] at size
        omega
      rw [left, List.nil_append, List.nil_append, evict_cons whole]
      have filled : set.inner.entries.length = set.capacity := by
        refine Nat.le_antisymm room ?_
        rw [← whole]
        exact Nat.le_trans (Nat.le_of_eq (by rw [size, List.length_nil, Nat.zero_add])) smaller
      refine iff_of_false ?_ (not_not_intro ⟨filled, ?_⟩)
      · intro same
        cases rest with
        | nil => cases same
        | cons range others =>
          have placed := above range List.mem_cons_self
          rw [List.tail_cons] at same
          have equal := congrArg Prod.fst (List.cons.inj same).1
          exact absurd placed (by rw [← equal]; exact Nat.lt_irrefl _)
      · intro range first
        obtain ⟨others, cons⟩ := List.head?_eq_some_iff.mp first
        rw [cons, List.nil_append, insertRange] at inserted
        by_cases skipped : range.2 < start
        · rw [if_pos skipped] at inserted
          have equal := congrArg Prod.snd (List.cons.inj inserted).1
          simp only at equal
          omega
        · rw [if_neg skipped] at inserted
          by_cases ahead : stop < range.1
          · exact ahead
          · rw [if_neg ahead] at inserted
            have bound := insertRange_length_le (min start range.1) (max stop range.2) others
            rw [inserted, List.length_cons] at bound
            rw [cons, List.length_cons] at filled
            omega
    | cons first before =>
      have popped : last.popFirst.entries = before ++ rest := congrArg List.tail entries
      have left : (last.popFirst.insert low upper).entries = before ++ (low, upper) :: rest :=
        OrderedMap.insert_between popped (fun range member => below range (List.mem_cons_of_mem _ member)) above
      have whole : (before ++ (low, upper) :: rest).length = set.capacity := by
        rw [List.length_append, List.length_cons]
        rw [List.length_cons] at size
        omega
      rw [left, List.cons_append, evict_cons whole]
      refine iff_of_true rfl ?_
      intro front
      have placed := front.inserted separated (Nat.le_of_lt proper)
      rw [inserted] at placed
      have equal := congrArg Prod.fst (List.cons.inj placed).1
      have under := below first List.mem_cons_self
      simp only at equal
      omega
  · rw [stored, if_neg full]
    have left : (last.insert low upper).entries = before ++ (low, upper) :: rest :=
      OrderedMap.insert_between entries below above
    have few : (before ++ (low, upper) :: rest).length ≤ set.capacity := by
      rw [List.length_append, List.length_cons]
      omega
    rw [left, inserted, evict_of_le few]
    refine iff_of_true rfl ?_
    intro front
    have placed := front.inserted separated (Nat.le_of_lt proper)
    rw [inserted] at placed
    rw [placed, List.length_cons, front.1] at few
    omega

end BTreeRangeSet

namespace RangeSet

variable {set : RangeSet} {capacity : Nat}

/-- A set with the capacity, whose ranges are separated and no more than it allows. -/
structure Packed (set : RangeSet) (limit : Nat) : Prop where
  capacity : set.capacity = limit
  short : set.Short
  room : set.len ≤ limit
  separated : Separated set.iter

theorem new_packed (capacity : Nat) : (new capacity).Packed capacity where
  capacity := rfl
  short := by simp [new, Short, maxInlineCapacity]
  room := Nat.zero_le _
  separated := separated_nil

theorem evict_length_le (room : ranges.length ≤ capacity) :
    (evict capacity (insertRange start stop ranges)).length ≤ capacity := by
  have grown := insertRange_length_le start stop ranges
  rw [evict]
  split
  · rw [List.length_tail]
    omega
  · rename_i few
    exact Nat.not_lt.mp few

theorem evict_sublist (capacity : Nat) (ranges : List (Nat × Nat)) : List.Sublist (evict capacity ranges) ranges := by
  rw [evict]
  split
  · exact List.tail_sublist ranges
  · exact List.Sublist.refl _

theorem Packed.insert (packed : set.Packed capacity) (nonzero : 0 < capacity) (proper : start < stop) :
    (∀ next, set.insert start stop = some next → next.Packed capacity) ∧
      ((∃ next, set.insert start stop = some next ∧ next.iter = evict capacity (insertRange start stop set.iter)) ↔
        ¬ Front capacity stop set.iter) := by
  obtain ⟨same, short, room, separated⟩ := packed
  subst same
  have ordered := separated.insertRange (Nat.le_of_lt proper)
  have kept {left : List (Nat × Nat)} (sublist : List.Sublist left (insertRange start stop set.iter)) : Separated left :=
    ⟨ordered.ordered.sublist sublist, fun range member => ordered.proper range (sublist.subset member)⟩
  cases set with
  | inline vector =>
    rcases InlineRangeSet.insert_evict separated proper room with ⟨front, panicked⟩ | ⟨behind, stored⟩
    · have noResult : RangeSet.insert (.inline vector) start stop = none := by rw [RangeSet.insert, panicked]; rfl
      refine ⟨?_, iff_of_false ?_ (not_not_intro front)⟩
      · intro next inserted
        rw [noResult] at inserted
        cases inserted
      · rintro ⟨next, inserted, _⟩
        rw [noResult] at inserted
        cases inserted
    · let left := evict vector.capacity (insertRange start stop vector.inner)
      have fits : left.length ≤ vector.capacity := evict_length_le room
      have iter : (fixup (.inline { vector with inner := left })).iter = left := fixup_iter (kept (evict_sublist _ _))
      have insertsLeft : RangeSet.insert (.inline vector) start stop =
        some (fixup (.inline { vector with inner := left })) := by
        rw [RangeSet.insert, stored]
        rfl
      refine ⟨?_, iff_of_true ⟨_, insertsLeft, iter⟩ behind⟩
      intro next inserted
      rw [insertsLeft] at inserted
      cases inserted
      refine ⟨fixup_capacity _, fixup_short ?_, ?_, ?_⟩
      · intro other equal
        cases equal
        have grown := insertRange_length_le start stop vector.inner
        have shorter := (evict_sublist vector.capacity (insertRange start stop vector.inner)).length_le
        exact Nat.le_trans shorter (Nat.le_trans grown short)
      · rw [len, iter]
        exact fits
      · rw [iter]
        exact kept (evict_sublist _ _)
  | btree map =>
    obtain ⟨sublist, size⟩ := BTreeRangeSet.insert_entries_full separated (Nat.le_of_lt proper) nonzero room
    have iter : (fixup (.btree (map.insert start stop))).iter = (map.insert start stop).inner.entries :=
      fixup_iter (kept sublist)
    constructor
    · intro next inserted
      cases inserted
      refine ⟨fixup_capacity _, fixup_short (fun _ other => by cases other), ?_, ?_⟩
      · rw [len, iter]
        exact size
      · rw [iter]
        exact kept sublist
    · refine Iff.trans ?_ (BTreeRangeSet.insert_evict separated proper room)
      constructor
      · rintro ⟨next, inserted, equal⟩
        cases inserted
        exact iter.symm.trans equal
      · exact fun equal => ⟨_, rfl, iter.trans equal⟩

def inserts : Machine RangeSet (Nat × Nat) := ⟨fun set call => set.insert call.1 call.2⟩

/-- The normal form of the ranges, without the smallest one whenever there was one too many. -/
def kept (capacity : Nat) (calls : List (Nat × Nat)) : List (Nat × Nat) :=
  calls.foldl (fun ranges call => evict capacity (insertRange call.1 call.2 ranges)) []

theorem kept_append (capacity : Nat) (calls : List (Nat × Nat)) (call : Nat × Nat) :
    kept capacity (calls ++ [call]) = evict capacity (insertRange call.1 call.2 (kept capacity calls)) := by
  rw [kept, List.foldl_append]
  rfl

theorem inserts_packed (nonzero : 0 < capacity) {calls : List (Nat × Nat)} (proper : ∀ call ∈ calls, call.1 < call.2)
    (returned : inserts.run (new capacity) calls = some set) : set.Packed capacity := by
  have preserved (state : RangeSet) (call : Nat × Nat) (next : RangeSet) (packed : state.Packed capacity)
      (guard : True ∧ call.1 < call.2) (stepped : inserts.step state call = some next) : next.Packed capacity :=
    (packed.insert nonzero guard.2).1 next stepped
  exact inserts.run_keeps_of_guarded preserved (new_packed capacity)
    ((Machine.guarded_true _ calls).and_forall proper) returned

/-- Insertion keeps the highest ranges, as many as the capacity admits, unless the set is full and a
range is to be put in front of all others. -/
theorem insert_keeps_highest (capacity : Nat) (nonzero : 0 < capacity) (calls : List (Nat × Nat))
    (proper : ∀ call ∈ calls, call.1 < call.2) :
    (∀ set, inserts.run (new capacity) calls = some set → set.len ≤ capacity) ∧
      ((∀ count, ∃ set, inserts.run (new capacity) (calls.take count) = some set ∧
          set.len ≤ capacity ∧ set.iter = kept capacity (calls.take count)) ↔ ∀ place, (inside : place < calls.length) →
          ¬ Front capacity calls[place].2 (kept capacity (calls.take place))) := by
  have packed (count : Nat) {set : RangeSet} (returned : inserts.run (new capacity) (calls.take count) = some set) :
      set.Packed capacity :=
    inserts_packed nonzero (fun call member => proper call (List.mem_of_mem_take member)) returned
  have step (place : Nat) (inside : place < calls.length) {set : RangeSet}
      (returned : inserts.run (new capacity) (calls.take place) = some set)
      (iter : set.iter = kept capacity (calls.take place)) :
      (∃ next, inserts.run (new capacity) (calls.take (place + 1)) = some next ∧
        next.iter = kept capacity (calls.take (place + 1))) ↔
          ¬ Front capacity calls[place].2 (kept capacity (calls.take place)) := by
    have inserted := ((packed place returned).insert nonzero (proper calls[place] (List.getElem_mem inside))).2
    rw [iter] at inserted
    rw [← inserted, ← List.take_append_getElem inside, kept_append, Machine.run_append, returned]
    simp only [Option.bind_some, Machine.run, Option.bind_fun_some, inserts]
  refine ⟨fun set returned => (inserts_packed nonzero proper returned).room, ?_⟩
  constructor
  · intro every place inside
    obtain ⟨set, returned, _, iter⟩ := every place
    obtain ⟨next, reached, _, later⟩ := every (place + 1)
    exact (step place inside returned iter).mp ⟨next, reached, later⟩
  · intro spared count
    induction count with
    | zero => exact ⟨new capacity, rfl, Nat.zero_le _, rfl⟩
    | succ place ih =>
      obtain ⟨set, returned, bound, iter⟩ := ih
      by_cases inside : place < calls.length
      · obtain ⟨next, reached, later⟩ := (step place inside returned iter).mpr (spared place inside)
        exact ⟨next, reached, (packed (place + 1) reached).room, later⟩
      · have whole := Nat.not_lt.mp inside
        rw [List.take_of_length_le whole] at returned iter
        rw [List.take_of_length_le (Nat.le_succ_of_le whole)]
        exact ⟨set, returned, bound, iter⟩

/-- A third range makes a set of two give up the lowest one. -/
theorem insert_keeps_highest_third : ∃ set, inserts.run (new 2) [(0, 1), (4, 6), (2, 3)] = some set ∧
      set.len ≤ 2 ∧ set.iter = kept 2 [(0, 1), (4, 6), (2, 3)] :=
  (insert_keeps_highest 2 (by decide) [(0, 1), (4, 6), (2, 3)] (by decide)).2.mpr (by decide) 3

/-- A set that is full panics over a range in front of its own. -/
theorem insert_front_panics : ∃ capacity > 0, ∃ calls : List (Nat × Nat), (∀ call ∈ calls, call.1 < call.2) ∧
    inserts.run (new capacity) calls = none := ⟨1, by decide, [(5, 6), (1, 2)], by decide, by decide⟩

end RangeSet

end Quiche
