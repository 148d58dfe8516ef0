import Mathlib.Data.Nat.Basic
import Quiche.Data.OrderedMap
import Quiche.Error

namespace Quiche

open Data

def maxInlineCapacity : Nat := 4
def minToInline : Nat := 2

/-- `usize::MAX` -/
def usizeMax : Nat := 2 ^ 64 - 1

/-- Ranges in a vector; `capacity` bounds how many are kept. -/
structure InlineRangeSet where
  inner : List (Nat × Nat)
  capacity : Nat
deriving DecidableEq

structure BTreeRangeSet where
  inner : OrderedMap Nat Nat
  capacity : Nat
deriving DecidableEq

inductive RangeSet where
  | inline (set : InlineRangeSet)
  | btree (set : BTreeRangeSet)
deriving DecidableEq

namespace InlineRangeSet

/-- The `while` loop that merges the ranges after position `pos` into the one there,
which now ends at `stop`. -/
def mergeFollowing (stop : Nat) : List (Nat × Nat) → Nat × List (Nat × Nat)
  | [] => (stop, [])
  | (s, e) :: rest =>
    if stop < s then (stop, (s, e) :: rest)
    else mergeFollowing (max e stop) rest

/-- `before` holds the ranges that the loop skips, up to position `pos`. `none` is
a panic: `remove(0)` of an empty vector, or `pos -= 1` at position zero. -/
def insert (set : InlineRangeSet) (start stop : Nat) : Option InlineRangeSet :=
  let before := set.inner.takeWhile fun range => start > range.2
  match set.inner.dropWhile fun range => start > range.2 with
  | (s, e) :: rest =>
    if stop < s then
      if set.inner.length = set.capacity then
        match before with
        | [] => none
        | _ :: kept => some { set with inner := kept ++ (start, stop) :: (s, e) :: rest }
      else some { set with inner := before ++ (start, stop) :: (s, e) :: rest }
    else
      let lower := if start < s then start else s
      if stop > e then
        let (upper, after) := mergeFollowing stop rest
        some { set with inner := before ++ (lower, upper) :: after }
      else some { set with inner := before ++ (lower, e) :: rest }
  | [] =>
    if set.inner.length = set.capacity then
      match set.inner with
      | [] => none
      | _ :: kept => some { set with inner := kept ++ [(start, stop)] }
    else some { set with inner := set.inner ++ [(start, stop)] }

/-- The `while` loop of `remove_until`. The sum does not overflow, since the range
ends past `largest`. -/
def removeUntilLoop (largest : Nat) : List (Nat × Nat) → List (Nat × Nat)
  | [] => []
  | (s, e) :: rest =>
    if largest ≥ e then removeUntilLoop largest rest
    else
      let s := max (largest + 1) s
      if s = e then rest else (s, e) :: rest

def removeUntil (set : InlineRangeSet) (largest : Nat) : InlineRangeSet :=
  { set with inner := removeUntilLoop largest set.inner }

end InlineRangeSet

namespace BTreeRangeSet

def rangeOverlaps (range other : Nat × Nat) : Bool :=
  other.1 ≥ range.1 && other.1 ≤ range.2 || other.2 ≥ range.1 && other.2 ≤ range.2

/-- `item.contains(&value)` -/
def contains (item : Nat × Nat) (value : Nat) : Bool := item.1 ≤ value && value < item.2

def prevTo (inner : OrderedMap Nat Nat) (item : Nat) : Option (Nat × Nat) := (inner.rangeTo item).getLast?

def nextTo (inner : OrderedMap Nat Nat) (item : Nat) : Option (Nat × Nat) := (inner.rangeFrom item).head?

/-- The `while` loop of `insert`: every turn but the last removes a range, so the
number of ranges bounds the turns. -/
def absorbFollowing (item : Nat × Nat) : Nat → OrderedMap Nat Nat → Nat → Nat → OrderedMap Nat Nat × Nat × Nat
  | 0, inner, start, stop => (inner, start, stop)
  | fuel + 1, inner, start, stop =>
    match nextTo inner start with
    | none => (inner, start, stop)
    | some range =>
      if contains item range.1 && contains item range.2 then
        absorbFollowing item fuel (inner.remove range.1) start stop
      else if !rangeOverlaps range item then (inner, start, stop)
      else
        absorbFollowing item fuel (inner.remove range.1) (min start range.1) (max stop range.2)

def absorbPreceding (inner : OrderedMap Nat Nat) (item : Nat × Nat) : OrderedMap Nat Nat × Nat × Nat :=
  match prevTo inner item.1 with
  | none => (inner, item.1, item.2)
  | some range =>
    if rangeOverlaps range item then
      (inner.remove range.1, min item.1 range.1, max item.2 range.2)
    else (inner, item.1, item.2)

def insert (set : BTreeRangeSet) (start stop : Nat) : BTreeRangeSet :=
  let item := (start, stop)
  let (inner, low, high) := absorbPreceding set.inner item
  let (inner, low, high) := absorbFollowing item (inner.size + 1) inner low high
  let inner := if inner.size ≥ set.capacity then inner.popFirst else inner
  { set with inner := inner.insert low high }

/-- The `for` loop of `remove_until` over the ranges collected before. -/
def removeUntilLoop (largest : Nat) : List (Nat × Nat) → BTreeRangeSet → Option BTreeRangeSet
  | [], set => some set
  | range :: rest, set => do
    let set := { set with inner := set.inner.remove range.1 }
    let start ← addU64 largest 1
    removeUntilLoop largest rest (if range.2 > start then set.insert start range.2 else set)

def removeUntil (set : BTreeRangeSet) (largest : Nat) : Option BTreeRangeSet :=
  removeUntilLoop largest (set.inner.rangeTo largest) set

end BTreeRangeSet

namespace RangeSet

/-- `Default` -/
def default : RangeSet := .inline ⟨[], usizeMax⟩

def new (capacity : Nat) : RangeSet := .inline ⟨[], capacity⟩

def iter : RangeSet → List (Nat × Nat)
  | .inline set => set.inner
  | .btree set => set.inner.entries

def capacity : RangeSet → Nat
  | .inline set => set.capacity
  | .btree set => set.capacity

def len (set : RangeSet) : Nat := set.iter.length

/-- The map of a vector that is in order already; `collect` sorts by key. -/
def toMap (ranges : List (Nat × Nat)) : OrderedMap Nat Nat :=
  ranges.foldl (fun map range => map.insert range.1 range.2) .empty

def fixup : RangeSet → RangeSet
  | .inline set =>
    if set.inner.length = maxInlineCapacity then .btree ⟨toMap set.inner, set.capacity⟩
    else .inline set
  | .btree set =>
    if set.inner.size ≤ minToInline then .inline ⟨set.inner.entries, set.capacity⟩
    else .btree set

/-- `none` is a panic of the inline representation. -/
def insert (set : RangeSet) (start stop : Nat) : Option RangeSet :=
  match set with
  | .inline set => (set.insert start stop).map fun set => fixup (.inline set)
  | .btree set => some (fixup (.btree (set.insert start stop)))

/-- `none` is an overflow. -/
def removeUntil (set : RangeSet) (largest : Nat) : Option RangeSet :=
  match set with
  | .inline set => some (fixup (.inline (set.removeUntil largest)))
  | .btree set => (set.removeUntil largest).map fun set => fixup (.btree set)

def pushItem (set : RangeSet) (item : Nat) : Option RangeSet := (addU64 item 1).bind fun stop => set.insert item stop

def eqRange (set : RangeSet) (start stop : Nat) : Bool :=
  if set.len ≠ 1 then false else set.iter.head? == some (start, stop)

theorem eqRange_iter {set : RangeSet} {start stop : Nat} (equal : set.eqRange start stop = true) :
    set.iter = [(start, stop)] := by
  rw [eqRange, len] at equal
  split at equal
  · contradiction
  · rename_i single
    obtain ⟨range, only⟩ := List.length_eq_one_iff.mp (Decidable.not_not.mp single)
    rw [only, List.head?_cons, beq_iff_eq, Option.some.injEq] at equal
    rw [only, equal]

end RangeSet

end Quiche
