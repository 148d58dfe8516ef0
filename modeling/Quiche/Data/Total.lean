import Mathlib.Algebra.BigOperators.Group.List.Basic
import Mathlib.Algebra.GroupWithZero.Nat
import Mathlib.Data.List.AList

namespace Quiche.Data

/-! Sums over the values of a map. A change of the value at one key moves such a sum by
the weights of the old and the new value; only what can be looked up counts. -/

variable {κ α : Type}

def total (weight : α → Nat) (map : AList fun _ : κ => α) : Nat := (map.entries.map fun entry => weight entry.2).sum

variable [DecidableEq κ] {weight : α → Nat} {map next : AList fun _ : κ => α} {key : κ} {old new : α}

theorem total_congr (same : ∀ key, next.lookup key = map.lookup key) : total weight next = total weight map := by
  have permuted : next.entries.Perm map.entries := List.lookup_ext next.nodupKeys map.nodupKeys fun key value => by
      rw [← AList.lookup, ← AList.lookup, same]
  exact (permuted.map _).sum_eq

theorem total_erase (found : map.lookup key = some old) :
    total weight (map.erase key) + weight old = total weight map := by
  have member : key ∈ map.entries.keys := AList.lookup_isSome.mp (by rw [found]; rfl)
  obtain ⟨value, before, behind, fresh, entries, erased⟩ := List.exists_of_kerase member
  have value_eq : value = old := by
    have listed : (⟨key, value⟩ : Sigma fun _ : κ => α) ∈ map.entries := by
      rw [entries]
      exact List.mem_append_right _ List.mem_cons_self
    exact Option.some.inj ((List.mem_dlookup map.nodupKeys listed).symm.trans found)
  subst value_eq
  have remaining : (map.erase key).entries = before ++ behind := erased
  rw [total, total, remaining, entries]
  simp only [List.map_append, List.sum_append, List.map_cons, List.sum_cons]
  omega

/-- The map has the new value at the key and is the same elsewhere. -/
def Put (map : AList fun _ : κ => α) (key : κ) (new : α) (next : AList fun _ : κ => α) : Prop :=
  ∀ other, next.lookup other = if other = key then some new else map.lookup other

/-- The map has nothing at the key and is the same elsewhere. -/
def Dropped (map : AList fun _ : κ => α) (key : κ) (next : AList fun _ : κ => α) : Prop :=
  ∀ other, next.lookup other = if other = key then none else map.lookup other

theorem put_insert (map : AList fun _ : κ => α) (key : κ) (new : α) : Put map key new (map.insert key new) := by
  intro other
  split
  · rename_i same
    subst same
    exact AList.lookup_insert map
  · exact AList.lookup_insert_ne ‹_›

theorem dropped_erase (map : AList fun _ : κ => α) (key : κ) : Dropped map key (map.erase key) := by
  intro other
  split
  · rename_i same
    subst same
    exact AList.lookup_erase other map
  · exact AList.lookup_erase_ne ‹_›

theorem put_self (found : map.lookup key = some old) : Put map key old map := by
  intro other
  split
  · rename_i same
    rw [same, found]
  · rfl

theorem Put.trans {middle : AList fun _ : κ => α} (first : Put map key old middle) (second : Put middle key new next) :
    Put map key new next := by
  intro other
  rw [second, first]
  split <;> rfl

theorem Put.drop {middle : AList fun _ : κ => α} (first : Put map key old middle) (second : Dropped middle key next) :
    Dropped map key next := by
  intro other
  rw [second, first]
  split <;> rfl

theorem Dropped.total (found : map.lookup key = some old) (dropped : Dropped map key next) :
    Data.total weight next + weight old = Data.total weight map := by
  rw [total_congr fun other => (dropped other).trans (dropped_erase map key other).symm]
  exact total_erase found

theorem Put.total_new (absent : map.lookup key = none) (put : Put map key new next) :
    Data.total weight next = Data.total weight map + weight new := by
  rw [total_congr fun other => (put other).trans (put_insert map key new other).symm, total,
    AList.entries_insert_of_notMem (AList.lookup_eq_none.mp absent), List.map_cons, List.sum_cons, Nat.add_comm]
  rfl

theorem Put.total (found : map.lookup key = some old) (put : Put map key new next) :
    Data.total weight next + weight old = Data.total weight map + weight new := by
  have erased : Data.total weight (map.erase key) + weight old = Data.total weight map := total_erase found
  have inserted : Data.total weight next = weight new + Data.total weight (map.erase key) := by
    rw [total_congr fun other => (put other).trans (put_insert map key new other).symm, Data.total,
      AList.entries_insert, List.map_cons, List.sum_cons]
    rfl
  omega

theorem le_total (found : map.lookup key = some old) : weight old ≤ total weight map := by
  have erased : total weight (map.erase key) + weight old = total weight map := total_erase found
  omega

end Quiche.Data
