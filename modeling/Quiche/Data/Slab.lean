import Mathlib.Data.List.Basic

namespace Quiche.Data

structure Slab (Value : Type) where
  entries : List (Option Value)
  /-- The vacant slots, the last one to become vacant first. -/
  free : List Nat
  vacant : ∀ key ∈ free, entries[key]? = some none
  distinct : free.Nodup
deriving DecidableEq

namespace Slab

variable {Value : Type} {slab : Slab Value} {key other : Nat} {value : Value}

def empty : Slab Value := ⟨[], [], by simp, .nil⟩

def get (slab : Slab Value) (key : Nat) : Option Value := slab.entries[key]?.join

def len (slab : Slab Value) : Nat := (slab.entries.filter Option.isSome).length

def collect : Nat → List (Option Value) → List (Nat × Value)
  | _, [] => []
  | key, none :: rest => collect (key + 1) rest
  | key, some value :: rest => (key, value) :: collect (key + 1) rest

def iter (slab : Slab Value) : List (Nat × Value) := collect 0 slab.entries

def nextKey (slab : Slab Value) : Nat := slab.free.head?.getD slab.entries.length

def insert (slab : Slab Value) (value : Value) : Slab Value :=
  match filled : slab.free with
  | [] => ⟨slab.entries ++ [some value], [], by simp, .nil⟩
  | key :: rest =>
    { entries := slab.entries.set key (some value)
      free := rest
      vacant := by
        intro other member
        have distinct := slab.distinct
        rw [filled, List.nodup_cons] at distinct
        have different : key ≠ other := fun same => distinct.1 (same ▸ member)
        rw [List.getElem?_set_ne different]
        exact slab.vacant other (filled ▸ List.mem_cons_of_mem key member)
      distinct := by
        have distinct := slab.distinct
        rw [filled] at distinct
        exact distinct.of_cons }

def update (slab : Slab Value) (key : Nat) (change : Value → Value) : Slab Value where
  entries := slab.entries.modify key (Option.map change)
  free := slab.free
  vacant := by
    intro other member
    rw [List.getElem?_modify, slab.vacant other member]
    split <;> rfl
  distinct := slab.distinct

theorem not_mem_free (found : slab.get key = some value) : key ∉ slab.free := by
  intro member
  rw [get, slab.vacant key member] at found
  cases found

def remove (slab : Slab Value) (key : Nat) : Slab Value :=
  match found : slab.get key with
  | none => slab
  | some _ =>
    { entries := slab.entries.set key none
      free := key :: slab.free
      vacant := by
        intro other member
        by_cases same : other = key
        · subst same
          have within : other < slab.entries.length := by
            by_contra outside
            rw [get, List.getElem?_eq_none (Nat.not_lt.mp outside)] at found
            cases found
          rw [List.getElem?_set_self within]
        · rw [List.getElem?_set_ne (Ne.symm same)]
          exact slab.vacant other (List.mem_of_ne_of_mem same member)
      distinct := List.nodup_cons.mpr ⟨not_mem_free found, slab.distinct⟩ }

section

variable (slab : Slab Value)

theorem get_update (key : Nat) (change : Value → Value) (other : Nat) :
    (slab.update key change).get other = if other = key then (slab.get other).map change else slab.get other := by
  rw [get, update, List.getElem?_modify, get]
  by_cases same : key = other
  · simp only [if_pos same, if_pos same.symm]
    cases slab.entries[other]? with
    | none => rfl
    | some entry => cases entry <;> rfl
  · simp only [if_neg same, if_neg (Ne.symm same)]
    cases slab.entries[other]? <;> rfl

theorem get_nextKey : slab.get slab.nextKey = none := by
  rw [get, nextKey]
  cases filled : slab.free with
  | nil => simp
  | cons key rest =>
    have vacant := slab.vacant key (filled ▸ List.mem_cons_self)
    rw [List.head?_cons, Option.getD_some, vacant]
    rfl

theorem get_insert (value : Value) (other : Nat) :
    (slab.insert value).get other = if other = slab.nextKey then some value else slab.get other := by
  rw [insert]
  split
  · rename_i filled
    have next : slab.nextKey = slab.entries.length := by rw [nextKey, filled]; rfl
    rw [next, get]
    rcases Nat.lt_trichotomy other slab.entries.length with before | same | past
    · simp [List.getElem?_append_left before, Nat.ne_of_lt before, get]
    · simp [same]
    · have outside : (slab.entries ++ [some value]).length ≤ other := by
        rw [List.length_append]
        exact past
      rw [if_neg (Nat.ne_of_gt past), get, List.getElem?_eq_none outside, List.getElem?_eq_none (Nat.le_of_lt past)]
  · rename_i key rest filled
    have next : slab.nextKey = key := by rw [nextKey, filled]; rfl
    have vacant := slab.vacant key (filled ▸ List.mem_cons_self)
    have within : key < slab.entries.length := (List.getElem?_eq_some_iff.mp vacant).1
    rw [next, get]
    by_cases same : other = key
    · subst same
      rw [List.getElem?_set_self within, if_pos rfl]
      rfl
    · rw [List.getElem?_set_ne (Ne.symm same), if_neg same, get]

theorem get_remove (key other : Nat) : (slab.remove key).get other = if other = key then none else slab.get other := by
  rw [remove]
  split
  · rename_i absent
    by_cases same : other = key
    · rw [if_pos same, same, absent]
    · rw [if_neg same]
  · rw [get]
    by_cases same : other = key
    · subst same
      rw [if_pos rfl, List.getElem?_set_self']
      cases slab.entries[other]? <;> rfl
    · rw [if_neg same, List.getElem?_set_ne (Ne.symm same), get]

end

theorem mem_collect {start : Nat} {entries : List (Option Value)} :
    (key, value) ∈ collect start entries ↔ start ≤ key ∧ entries[key - start]? = some (some value) := by
  induction entries generalizing start with
  | nil => simp [collect]
  | cons entry rest ih =>
    have later : ∀ {key : Nat}, start + 1 ≤ key ∧ rest[key - (start + 1)]? = some (some value) ↔
        start < key ∧ (entry :: rest)[key - start]? = some (some value) := by
      intro key
      refine and_congr_right fun past => ?_
      have shifted : key - start = key - (start + 1) + 1 := by omega
      rw [shifted, List.getElem?_cons_succ]
    cases entry with
    | none =>
      rw [collect, ih, later]
      constructor
      · exact fun both => ⟨Nat.le_of_lt both.1, both.2⟩
      · intro both
        refine ⟨Nat.lt_of_le_of_ne both.1 fun same => ?_, both.2⟩
        subst same
        simp at both
    | some first =>
      rw [collect, List.mem_cons, ih, later, Prod.mk.injEq]
      constructor
      · intro either
        rcases either with ⟨rfl, rfl⟩ | both
        · simp
        · exact ⟨Nat.le_of_lt both.1, both.2⟩
      · intro both
        rcases Nat.eq_or_lt_of_le both.1 with rfl | past
        · left
          simpa using both.2.symm
        · exact .inr ⟨past, both.2⟩

@[simp] theorem mem_iter : (key, value) ∈ slab.iter ↔ slab.get key = some value := by
  rw [iter, mem_collect, get, Option.join_eq_some_iff]
  simp

theorem collect_keys_nodup (start : Nat) (entries : List (Option Value)) :
    ((collect start entries).map (·.1)).Nodup := by
  induction entries generalizing start with
  | nil => exact List.nodup_nil
  | cons entry rest ih =>
    cases entry with
    | none => exact ih (start + 1)
    | some first =>
      rw [collect, List.map_cons, List.nodup_cons]
      refine ⟨?_, ih (start + 1)⟩
      intro repeated
      obtain ⟨⟨key, value⟩, member, same⟩ := List.mem_map.mp repeated
      have later := (mem_collect.mp member).1
      dsimp only at same
      omega

theorem iter_keys_nodup (slab : Slab Value) : (slab.iter.map (·.1)).Nodup := collect_keys_nodup 0 slab.entries

end Slab

end Quiche.Data
