import Mathlib.Data.List.Basic
import Mathlib.Order.Lattice

namespace Quiche.Data

/-! Maps kept in key order, the reading of a B-tree map that its users rely on:
iteration in ascending key order, at most one value for a key. -/

structure OrderedMap (κ α : Type) [LinearOrder κ] where
  entries : List (κ × α)
  ordered : entries.Pairwise fun first second => first.1 < second.1

namespace OrderedMap

variable {κ α : Type} [LinearOrder κ]

instance [DecidableEq α] : DecidableEq (OrderedMap κ α)
  | ⟨left, _⟩, ⟨right, _⟩ => decidable_of_iff (left = right) (by simp)

def empty : OrderedMap κ α := ⟨[], .nil⟩

def size (map : OrderedMap κ α) : Nat := map.entries.length

def first? (map : OrderedMap κ α) : Option (κ × α) := map.entries.head?

def insertEntry (key : κ) (value : α) : List (κ × α) → List (κ × α)
  | [] => [(key, value)]
  | entry :: rest =>
    if key < entry.1 then (key, value) :: entry :: rest
    else if key = entry.1 then (key, value) :: rest
    else entry :: insertEntry key value rest

variable {key : κ} {value : α} {map : OrderedMap κ α} {before after : List (κ × α)}

theorem mem_insertEntry {entries : List (κ × α)} {entry : κ × α}
    (ordered : entries.Pairwise fun first second => first.1 < second.1) :
    entry ∈ insertEntry key value entries ↔ entry = (key, value) ∨ (entry.1 ≠ key ∧ entry ∈ entries) := by
  induction entries with
  | nil => simp [insertEntry]
  | cons head rest ih =>
    obtain ⟨below, restOrdered⟩ := List.pairwise_cons.mp ordered
    have restAbove : ∀ item ∈ rest, head.1 < item.1 := below
    simp only [insertEntry]
    split
    · rename_i before
      have distinct : ∀ item ∈ head :: rest, item.1 ≠ key := by
        intro item member
        cases List.mem_cons.mp member with
        | inl same =>
          subst same
          exact ne_of_gt before
        | inr member => exact ne_of_gt (before.trans (restAbove item member))
      constructor
      · intro member
        cases List.mem_cons.mp member with
        | inl same => exact .inl same
        | inr member => exact .inr ⟨distinct entry member, member⟩
      · intro either
        cases either with
        | inl same => exact same ▸ List.mem_cons_self
        | inr remains =>
          obtain ⟨_, member⟩ := remains
          exact List.mem_cons_of_mem _ member
    · split
      · rename_i same
        have distinct : ∀ item ∈ rest, item.1 ≠ key := by
          intro item member
          exact same ▸ ne_of_gt (restAbove item member)
        constructor
        · intro member
          cases List.mem_cons.mp member with
          | inl new => exact .inl new
          | inr member => exact .inr ⟨distinct entry member, List.mem_cons_of_mem _ member⟩
        · intro either
          cases either with
          | inl new => exact new ▸ List.mem_cons_self
          | inr remains =>
            obtain ⟨other, member⟩ := remains
            cases List.mem_cons.mp member with
            | inl same =>
              subst same
              exact absurd same.symm other
            | inr member => exact List.mem_cons_of_mem _ member
      · rename_i _ different
        rw [List.mem_cons, ih restOrdered, List.mem_cons]
        constructor
        · intro either
          cases either with
          | inl same =>
            subst same
            exact .inr ⟨Ne.symm different, .inl rfl⟩
          | inr inserted =>
            cases inserted with
            | inl new => exact .inl new
            | inr remains => exact .inr ⟨remains.1, .inr remains.2⟩
        · intro either
          cases either with
          | inl new => exact .inr (.inl new)
          | inr remains =>
            cases remains.2 with
            | inl same => exact .inl same
            | inr member => exact .inr (.inr ⟨remains.1, member⟩)

theorem insertEntry_ordered (key : κ) (value : α) {entries : List (κ × α)}
    (ordered : entries.Pairwise fun first second => first.1 < second.1) :
    (insertEntry key value entries).Pairwise fun first second => first.1 < second.1 := by
  induction entries with
  | nil => exact List.pairwise_singleton _ _
  | cons head rest ih =>
    obtain ⟨below, restOrdered⟩ := List.pairwise_cons.mp ordered
    simp only [insertEntry]
    split
    · rename_i before
      refine List.pairwise_cons.mpr ⟨?_, ordered⟩
      intro item member
      cases List.mem_cons.mp member with
      | inl same =>
        subst same
        exact before
      | inr member => exact before.trans (below item member)
    · split
      · rename_i same
        exact List.pairwise_cons.mpr ⟨fun item member => same ▸ below item member, restOrdered⟩
      · rename_i notBefore different
        refine List.pairwise_cons.mpr ⟨?_, ih restOrdered⟩
        intro item member
        cases (mem_insertEntry restOrdered).mp member with
        | inl same =>
          subst same
          exact lt_of_le_of_ne (not_lt.mp notBefore) (Ne.symm different)
        | inr remains =>
          obtain ⟨_, member⟩ := remains
          exact below item member

def insert (map : OrderedMap κ α) (key : κ) (value : α) : OrderedMap κ α :=
  ⟨insertEntry key value map.entries, insertEntry_ordered key value map.ordered⟩

theorem mem_insert {entry : κ × α} :
    entry ∈ (map.insert key value).entries ↔ entry = (key, value) ∨ (entry.1 ≠ key ∧ entry ∈ map.entries) :=
  mem_insertEntry map.ordered

theorem insert_between (split : map.entries = before ++ after) (below : ∀ entry ∈ before, entry.1 < key)
    (above : ∀ entry ∈ after, key < entry.1) : (map.insert key value).entries = before ++ (key, value) :: after := by
  show insertEntry key value map.entries = _
  rw [split]
  clear split
  induction before with
  | nil =>
    cases after with
    | nil => rfl
    | cons entry rest =>
      rw [List.nil_append, insertEntry, if_pos (above entry List.mem_cons_self), List.nil_append]
  | cons entry rest ih =>
    obtain ⟨belowEntry, belowRest⟩ := List.forall_mem_cons.mp below
    rw [List.cons_append, insertEntry, if_neg (not_lt_of_gt belowEntry),
      if_neg (ne_of_gt belowEntry), ih belowRest, List.cons_append]

/-- The entries with a key of at least `key`, in order. -/
def rangeFrom (map : OrderedMap κ α) (key : κ) : List (κ × α) := map.entries.filter fun entry => key ≤ entry.1

theorem mem_rangeFrom {entry : κ × α} : entry ∈ map.rangeFrom key ↔ entry ∈ map.entries ∧ key ≤ entry.1 := by
  simp [rangeFrom]

/-- The entries with a key of at most `key`, in order. -/
def rangeTo (map : OrderedMap κ α) (key : κ) : List (κ × α) := map.entries.filter fun entry => entry.1 ≤ key

theorem filter_le_append_lt {entries : List (κ × α)}
    (ordered : entries.Pairwise fun first second => first.1 < second.1) :
    (entries.filter fun entry => entry.1 ≤ key) ++ (entries.filter fun entry => key < entry.1) = entries := by
  induction entries with
  | nil => rfl
  | cons head rest ih =>
    obtain ⟨below, restOrdered⟩ := List.pairwise_cons.mp ordered
    cases le_or_gt head.1 key with
    | inl inside =>
      rw [List.filter_cons_of_pos (by simpa using inside),
        List.filter_cons_of_neg (by simpa using inside), List.cons_append, ih restOrdered]
    | inr outside =>
      have allOutside : ∀ entry ∈ rest, key < entry.1 := fun entry member => outside.trans (below entry member)
      have none : rest.filter (fun entry => entry.1 ≤ key) = [] :=
        List.filter_eq_nil_iff.mpr (by simpa using allOutside)
      have all : rest.filter (fun entry => key < entry.1) = rest := List.filter_eq_self.mpr (by simpa using allOutside)
      rw [List.filter_cons_of_neg (by simpa using outside),
        List.filter_cons_of_pos (by simpa using outside), none, all, List.nil_append]

theorem rangeTo_split (map : OrderedMap κ α) (key : κ) :
    ∃ after, map.entries = map.rangeTo key ++ after ∧ ∀ entry ∈ after, key < entry.1 :=
  ⟨_, (filter_le_append_lt map.ordered).symm, by simp⟩

theorem head?_rangeFrom (split : map.entries = before ++ after) (below : ∀ entry ∈ before, entry.1 < key)
    (above : ∀ entry ∈ after, key ≤ entry.1) : (map.rangeFrom key).head? = after.head? := by
  have none : before.filter (fun entry => key ≤ entry.1) = [] := List.filter_eq_nil_iff.mpr (by simpa using below)
  have all : after.filter (fun entry => key ≤ entry.1) = after := List.filter_eq_self.mpr (by simpa using above)
  rw [rangeFrom, split, List.filter_append, none, all, List.nil_append]

def remove (map : OrderedMap κ α) (key : κ) : OrderedMap κ α :=
  ⟨map.entries.filter fun entry => entry.1 ≠ key, map.ordered.filter _⟩

theorem remove_between {entry : κ × α} (split : map.entries = before ++ entry :: after) :
    (map.remove entry.1).entries = before ++ after := by
  have ordered := split ▸ map.ordered
  obtain ⟨_, fromEntry, across⟩ := List.pairwise_append.mp ordered
  have fromBefore : ∀ other ∈ before, other.1 ≠ entry.1 :=
    fun other member => ne_of_lt (across other member entry List.mem_cons_self)
  have fromAfter : ∀ other ∈ after, other.1 ≠ entry.1 :=
    fun other member => ne_of_gt ((List.pairwise_cons.mp fromEntry).1 other member)
  show List.filter _ map.entries = _
  rw [split, List.filter_append, List.filter_cons_of_neg (by simp),
    List.filter_eq_self.mpr (by simpa using fromBefore), List.filter_eq_self.mpr (by simpa using fromAfter)]

def popFirst (map : OrderedMap κ α) : OrderedMap κ α := ⟨map.entries.tail, map.ordered.tail⟩

def setFirst (map : OrderedMap κ α) (value : α) : OrderedMap κ α where
  entries := match map.entries with
    | [] => []
    | entry :: rest => (entry.1, value) :: rest
  ordered := by
    have ordered := map.ordered
    split
    · exact .nil
    · rename_i entry rest same
      rw [same] at ordered
      exact List.pairwise_cons.mpr (List.pairwise_cons.mp ordered)

theorem of_mem_setFirst {entry : κ × α}
    (member : entry ∈ (map.setFirst value).entries) : entry.2 = value ∨ entry ∈ map.entries := by
  simp only [setFirst] at member
  split at member
  · contradiction
  · rename_i first rest same
    rw [same]
    rcases List.mem_cons.mp member with rfl | later
    · exact .inl rfl
    · exact .inr (List.mem_cons_of_mem _ later)

end OrderedMap

end Quiche.Data
