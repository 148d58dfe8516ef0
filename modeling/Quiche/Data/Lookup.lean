import Mathlib.Data.List.Induction
import Mathlib.Logic.Function.Basic
import Quiche.Data.OrderedMap

namespace Quiche.Data

/-! Maps as functions from keys to what they hold, and what a history of changes leaves in such a function. -/

namespace OrderedMap

variable {κ α : Type} [LinearOrder κ] {map : OrderedMap κ α} {key : κ} {value : α}

theorem eq_of_key {entries : List (κ × α)} (ordered : entries.Pairwise fun first second => first.1 < second.1)
    {first second : κ × α} (left : first ∈ entries) (right : second ∈ entries) (same : first.1 = second.1) :
    first = second := by
  induction entries with
  | nil => cases left
  | cons head rest ih =>
    obtain ⟨below, restOrdered⟩ := List.pairwise_cons.mp ordered
    rcases List.mem_cons.mp left with rfl | leftLater
    · rcases List.mem_cons.mp right with rfl | rightLater
      · rfl
      · exact absurd same (ne_of_lt (below second rightLater))
    · rcases List.mem_cons.mp right with rfl | rightLater
      · exact absurd same (ne_of_gt (below first leftLater))
      · exact ih restOrdered leftLater rightLater

def get? (map : OrderedMap κ α) (key : κ) : Option α := (map.entries.find? fun entry => entry.1 = key).map Prod.snd

theorem get?_eq_some : map.get? key = some value ↔ (key, value) ∈ map.entries := by
  rw [get?]
  cases found : map.entries.find? fun entry => entry.1 = key with
  | none =>
    have absent := List.find?_eq_none.mp found
    constructor
    · intro present
      cases present
    · intro member
      simpa using absent _ member
  | some entry =>
    have named : entry.1 = key := by simpa using List.find?_some found
    have member := List.mem_of_find?_eq_some found
    constructor
    · intro same
      have held : entry = (key, value) := Prod.ext named (Option.some.inj same)
      exact held ▸ member
    · intro other
      rw [eq_of_key map.ordered member other named]
      rfl

theorem get?_insert (map : OrderedMap κ α) (key : κ) (value : α) :
    (map.insert key value).get? = Function.update map.get? key (some value) := by
  funext other
  ext held
  rw [get?_eq_some, mem_insert]
  by_cases same : other = key
  · subst same
    rw [Function.update_self]
    simp [eq_comm]
  · rw [Function.update_of_ne same, ← get?_eq_some]
    simp [same]

theorem get?_remove (map : OrderedMap κ α) (key : κ) : (map.remove key).get? = Function.update map.get? key none := by
  funext other
  ext held
  rw [get?_eq_some]
  by_cases same : other = key
  · subst same
    rw [Function.update_self]
    simp [remove]
  · rw [Function.update_of_ne same, ← get?_eq_some]
    simp [remove, same, get?_eq_some]

end OrderedMap

section Latest

variable {κ α : Type} [DecidableEq κ]

def latest (changes : List (κ × Option α)) (key : κ) : Option α :=
  (changes.reverse.find? fun change => change.1 = key).bind Prod.snd

def changed (changes : List (κ × Option α)) : κ → Option α :=
  changes.foldl (fun function change => Function.update function change.1 change.2) fun _ => none

theorem changed_append_singleton (changes : List (κ × Option α)) (change : κ × Option α) :
    changed (changes ++ [change]) = Function.update (changed changes) change.1 change.2 := by
  rw [changed, List.foldl_append]
  rfl

theorem changed_eq_latest (changes : List (κ × Option α)) (key : κ) : changed changes key = latest changes key := by
  induction changes using List.reverseRecOn with
  | nil => rfl
  | append_singleton changes change ih =>
    rw [changed_append_singleton, latest, List.reverse_append, List.reverse_singleton, List.singleton_append]
    by_cases same : change.1 = key
    · rw [List.find?_cons_of_pos (by simpa using same), ← same, Function.update_self]
      rfl
    · rw [List.find?_cons_of_neg (by simpa using same), Function.update_of_ne (Ne.symm same), ih, latest]

end Latest

end Quiche.Data
