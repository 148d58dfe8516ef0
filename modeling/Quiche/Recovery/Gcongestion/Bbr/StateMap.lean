import Mathlib.Logic.Function.Basic
import Quiche.Data.Machine

namespace Quiche.Bbr

open Data

/-- The states of the packets that were sent; one that was taken leaves its number behind until it is the
first. -/
abbrev ConnectionStateMap (State : Type) := List (Nat × Option State)

namespace ConnectionStateMap

variable {State : Type}

/-- `none` is the assertion that packet numbers increase. -/
def insert (map : ConnectionStateMap State) (pktNum : Nat) (state : State) : Option (ConnectionStateMap State) :=
  if map.getLast?.any fun last => pktNum ≤ last.1 then none else some (map ++ [(pktNum, some state)])

/-- The numbers are in order, so that the binary search finds the entry if there is one. -/
def take (map : ConnectionStateMap State) (pktNum : Nat) : Option State × ConnectionStateMap State :=
  match map with
  | [] => (none, [])
  | first :: rest =>
    if first.1 = pktNum then (first.2, rest)
    else
      let taken := map.map fun entry => if entry.1 = pktNum then (entry.1, none) else entry
      ((map.find? (·.1 = pktNum)).bind (·.2), taken.dropWhile (·.2.isNone))

def removeObsolete (map : ConnectionStateMap State) (leastAcked : Nat) : ConnectionStateMap State :=
  map.dropWhile (·.1 < leastAcked)

/-- The packets are in the order of their numbers. -/
def Sorted (map : ConnectionStateMap State) : Prop := map.Pairwise fun left right => left.1 < right.1

def stored (map : ConnectionStateMap State) (pktNum : Nat) : Option State := (map.find? (·.1 = pktNum)).bind (·.2)

variable {map next : ConnectionStateMap State} {pktNum other : Nat} {state : State}

theorem stored_nil (pktNum : Nat) : stored ([] : ConnectionStateMap State) pktNum = none := rfl

theorem stored_cons (first : Nat × Option State) (rest : ConnectionStateMap State) (pktNum : Nat) :
    stored (first :: rest) pktNum = if first.1 = pktNum then first.2 else stored rest pktNum := by
  by_cases same : first.1 = pktNum
  · rw [stored, List.find?_cons_of_pos (by simpa using same), if_pos same]
    rfl
  · rw [stored, List.find?_cons_of_neg (by simpa using same), if_neg same]
    rfl

theorem stored_eq_none_of_absent (absent : ∀ entry ∈ map, entry.1 ≠ pktNum) : map.stored pktNum = none := by
  induction map with
  | nil => rfl
  | cons first rest ih =>
    obtain ⟨differs, others⟩ := List.forall_mem_cons.mp absent
    rw [stored_cons, if_neg differs, ih others]

theorem stored_dropWhile_isNone (sorted : map.Sorted) (pktNum : Nat) :
    stored (map.dropWhile (·.2.isNone)) pktNum = map.stored pktNum := by
  induction map with
  | nil => rfl
  | cons first rest ih =>
    obtain ⟨later, ordered⟩ := List.pairwise_cons.mp sorted
    obtain ⟨number, value⟩ := first
    cases value with
    | some known => rfl
    | none =>
      rw [List.dropWhile_cons_of_pos (by rfl), ih ordered, stored_cons]
      split
      · rename_i same
        apply stored_eq_none_of_absent
        intro entry member
        exact Nat.ne_of_gt (same ▸ later entry member)
      · rfl

section

variable (map : ConnectionStateMap State)

theorem stored_erase (pktNum other : Nat) :
    stored (map.map fun entry => if entry.1 = pktNum then (entry.1, none) else entry) other =
      if other = pktNum then none else map.stored other := by
  induction map with
  | nil => simp [stored_nil]
  | cons first rest ih =>
    rw [List.map_cons, stored_cons, ih, stored_cons]
    by_cases same : first.1 = pktNum
    · subst same
      by_cases equal : other = first.1
      · simp [equal]
      · simp [equal, Ne.symm equal]
    · by_cases equal : other = pktNum
      · subst equal
        simp [same]
      · simp [same, equal]

theorem keys_erase (pktNum : Nat) :
    (map.map fun entry => if entry.1 = pktNum then (entry.1, none) else entry).map (·.1) = map.map (·.1) := by
  rw [List.map_map]
  refine List.map_congr_left fun entry _ => ?_
  dsimp only [Function.comp]
  split <;> rfl

theorem take_keys (pktNum : Nat) : List.Sublist ((map.take pktNum).2.map (·.1)) (map.map (·.1)) := by
  cases map with
  | nil => exact .refl _
  | cons first rest =>
    rw [take]
    split
    · exact List.sublist_cons_self _ _
    · have shrinks := (List.dropWhile_sublist (fun entry : Nat × Option State => entry.2.isNone)
        (l := (first :: rest).map fun entry => if entry.1 = pktNum then (entry.1, none) else entry)).map (·.1)
      rw [keys_erase] at shrinks
      exact shrinks

end

theorem sorted_iff_keys : map.Sorted ↔ (map.map (·.1)).Pairwise (· < ·) := List.pairwise_map.symm

theorem stored_iff_mem (sorted : map.Sorted) : map.stored pktNum = some state ↔ (pktNum, some state) ∈ map := by
  induction map with
  | nil => simp [stored_nil]
  | cons first rest ih =>
    obtain ⟨later, ordered⟩ := List.pairwise_cons.mp sorted
    rw [stored_cons, List.mem_cons, ← ih ordered]
    split
    · rename_i same
      rw [stored_eq_none_of_absent fun entry member => Nat.ne_of_gt (same ▸ later entry member)]
      simp [Prod.ext_iff, same.symm, eq_comm]
    · rename_i differs
      simp [Prod.ext_iff, Ne.symm differs]

theorem take_spec (sorted : map.Sorted) (pktNum : Nat) :
    (map.take pktNum).1 = map.stored pktNum ∧ (map.take pktNum).2.Sorted ∧
      (map.take pktNum).2.stored = Function.update map.stored pktNum none := by
  cases map with
  | nil =>
    refine ⟨rfl, .nil, ?_⟩
    funext other
    rw [Function.update_apply]
    simp [take, stored_nil]
  | cons first rest =>
    obtain ⟨later, ordered⟩ := List.pairwise_cons.mp sorted
    rw [take]
    by_cases same : first.1 = pktNum
    · subst same
      rw [if_pos rfl]
      refine ⟨by rw [stored_cons, if_pos rfl], ordered, ?_⟩
      funext other
      rw [Function.update_apply, stored_cons]
      split
      · rename_i equal
        rw [equal]
        exact stored_eq_none_of_absent fun entry member => Nat.ne_of_gt (later entry member)
      · rename_i differs
        rw [if_neg (Ne.symm differs)]
    · rw [if_neg same]
      have erased := sorted_iff_keys.mpr (keys_erase (first :: rest) pktNum ▸ sorted_iff_keys.mp sorted)
      refine ⟨rfl, erased.sublist (List.dropWhile_sublist _), ?_⟩
      funext other
      rw [Function.update_apply, stored_dropWhile_isNone erased, stored_erase]

theorem stored_append (absent : ∀ entry ∈ map, entry.1 ≠ pktNum) (state : State) (other : Nat) :
    stored (map ++ [(pktNum, some state)]) other = if other = pktNum then some state else map.stored other := by
  induction map with
  | nil => simp [stored_cons, stored_nil, eq_comm]
  | cons first rest ih =>
    obtain ⟨differs, others⟩ := List.forall_mem_cons.mp absent
    rw [List.cons_append, stored_cons, ih others, stored_cons]
    by_cases same : first.1 = other
    · have distinct : other ≠ pktNum := same ▸ differs
      rw [if_pos same, if_neg distinct, if_pos same]
    · rw [if_neg same, if_neg same]

theorem below_of_insert (sorted : map.Sorted) (inserted : map.insert pktNum state = some next) :
    next = map ++ [(pktNum, some state)] ∧ ∀ entry ∈ map, entry.1 < pktNum := by
  rw [insert] at inserted
  split at inserted
  · cases inserted
  · rename_i above
    cases inserted
    refine ⟨rfl, fun entry member => ?_⟩
    obtain ⟨front, last, rfl⟩ := (List.eq_nil_or_concat map).resolve_left (List.ne_nil_of_mem member)
    have final : last.1 < pktNum := by simpa using above
    rw [List.concat_eq_append] at member
    rw [List.concat_eq_append] at sorted
    rcases List.mem_append.mp member with inFront | inLast
    · exact Nat.lt_trans ((List.pairwise_append.mp sorted).2.2 entry inFront last (List.mem_singleton.mpr rfl)) final
    · rw [List.mem_singleton.mp inLast]
      exact final

theorem insert_exists (below : ∀ entry ∈ map, entry.1 < pktNum) (state : State) :
    map.insert pktNum state = some (map ++ [(pktNum, some state)]) := by
  rw [insert]
  cases final : map.getLast? with
  | none => rfl
  | some last =>
    have less := below last (List.mem_of_getLast? final)
    exact if_neg (by simpa using less)

theorem insert_spec (sorted : map.Sorted) (inserted : map.insert pktNum state = some next) :
    next.Sorted ∧ map.stored pktNum = none ∧ next.stored = Function.update map.stored pktNum (some state) := by
  obtain ⟨rfl, below⟩ := below_of_insert sorted inserted
  have absent : ∀ entry ∈ map, entry.1 ≠ pktNum := fun entry member => Nat.ne_of_lt (below entry member)
  refine ⟨List.pairwise_append.mpr ⟨sorted, List.pairwise_singleton _ _, ?_⟩, stored_eq_none_of_absent absent, ?_⟩
  · intro entry member added inLast
    rw [List.mem_singleton.mp inLast]
    exact below entry member
  · funext other
    rw [Function.update_apply, stored_append absent]

theorem removeObsolete_spec (sorted : map.Sorted) (leastAcked : Nat) : (map.removeObsolete leastAcked).Sorted ∧
      ∀ other, (map.removeObsolete leastAcked).stored other = if other < leastAcked then none else map.stored other := by
  refine ⟨sorted.sublist (List.dropWhile_sublist _), fun other => ?_⟩
  rw [removeObsolete]
  induction map with
  | nil => simp [stored_nil]
  | cons first rest ih =>
    obtain ⟨later, ordered⟩ := List.pairwise_cons.mp sorted
    by_cases old : first.1 < leastAcked
    · rw [List.dropWhile_cons_of_pos (by simpa using old), ih ordered, stored_cons]
      split
      · rfl
      · rename_i recent
        rw [if_neg fun same : first.1 = other => recent (same ▸ old)]
    · rw [List.dropWhile_cons_of_neg (by simpa using old)]
      split
      · rename_i obsolete
        apply stored_eq_none_of_absent
        intro entry member
        rcases List.mem_cons.mp member with rfl | inRest
        · omega
        · have := later entry inRest
          omega
      · rfl

end ConnectionStateMap

inductive StateMapOp (State : Type) where
  | insert (pktNum : Nat) (state : State)
  | take (pktNum : Nat)
  | removeObsolete (leastAcked : Nat)

namespace StateMapOp

variable {State : Type}

def apply (map : ConnectionStateMap State) : StateMapOp State → Option (ConnectionStateMap State)
  | insert pktNum state => map.insert pktNum state
  | take pktNum => some (map.take pktNum).2
  | removeObsolete leastAcked => some (map.removeObsolete leastAcked)

def machine (State : Type) : Machine (ConnectionStateMap State) (StateMapOp State) := ⟨apply⟩

/-- The operation takes the packet out. -/
def Drops (pktNum : Nat) : StateMapOp State → Prop
  | insert _ _ => False
  | take taken => taken = pktNum
  | removeObsolete leastAcked => pktNum < leastAcked

/-- The state was inserted for the packet, and nothing has taken it out since. -/
def Remains (history : List (StateMapOp State)) (pktNum : Nat) (state : State) : Prop :=
  ∃ earlier later, history = earlier ++ insert pktNum state :: later ∧ ∀ op ∈ later, ¬ op.Drops pktNum

variable {history : List (StateMapOp State)} {op : StateMapOp State} {map : ConnectionStateMap State} {pktNum : Nat}
  {state : State}

theorem remains_append : Remains (history ++ [op]) pktNum state ↔
      op = insert pktNum state ∨ (Remains history pktNum state ∧ ¬ op.Drops pktNum) := by
  constructor
  · rintro ⟨earlier, later, divided, kept⟩
    rcases List.eq_nil_or_concat later with rfl | ⟨front, last, rfl⟩
    · obtain ⟨_, same⟩ := List.append_inj' divided rfl
      exact .inl (List.singleton_inj.mp same)
    · rw [List.concat_eq_append] at divided kept
      have parts : history ++ [op] = (earlier ++ insert pktNum state :: front) ++ [last] := by
        rw [divided]
        simp
      obtain ⟨before, same⟩ := List.append_inj' parts rfl
      cases List.singleton_inj.mp same
      refine .inr ⟨⟨earlier, front, before, fun op member => kept op (List.mem_append_left _ member)⟩, ?_⟩
      exact kept op (List.mem_append_right _ (List.mem_singleton.mpr rfl))
  · rintro (rfl | ⟨⟨earlier, later, rfl, kept⟩, last⟩)
    · exact ⟨history, [], rfl, fun _ member => absurd member List.not_mem_nil⟩
    · refine ⟨earlier, later ++ [op], by simp, fun other member => ?_⟩
      rcases List.mem_append.mp member with before | final
      · exact kept other before
      · rw [List.mem_singleton.mp final]
        exact last

variable {next : ConnectionStateMap State} {entry : Nat × Option State} {ops : List (StateMapOp State)}

theorem apply_spec (sorted : map.Sorted) (applied : op.apply map = some next)
    (stored : ∀ pktNum state, map.stored pktNum = some state ↔ Remains history pktNum state) :
    next.Sorted ∧ ∀ pktNum state, next.stored pktNum = some state ↔ Remains (history ++ [op]) pktNum state := by
  cases op with
  | insert added value =>
    obtain ⟨kept, absent, updated⟩ := ConnectionStateMap.insert_spec sorted applied
    refine ⟨kept, fun pktNum state => ?_⟩
    rw [remains_append, updated, ← stored, Function.update_apply]
    simp only [Drops, not_false_eq_true, and_true, insert.injEq]
    split
    · rename_i same
      rw [same, absent]
      simp
    · rename_i differs
      simp [Ne.symm differs]
  | take taken =>
    cases applied
    obtain ⟨_, kept, updated⟩ := ConnectionStateMap.take_spec sorted taken
    refine ⟨kept, fun pktNum state => ?_⟩
    rw [remains_append, updated, ← stored, Function.update_apply]
    simp only [Drops, reduceCtorEq, false_or]
    split
    · rename_i same
      simp [same]
    · rename_i differs
      simp [Ne.symm differs]
  | removeObsolete leastAcked =>
    cases applied
    obtain ⟨kept, updated⟩ := ConnectionStateMap.removeObsolete_spec sorted leastAcked
    refine ⟨kept, fun pktNum state => ?_⟩
    rw [remains_append, updated, ← stored]
    simp only [Drops, reduceCtorEq, false_or]
    split
    · rename_i obsolete
      simp [obsolete]
    · rename_i recent
      simp [recent]

theorem mem_of_apply (applied : op.apply map = some next)
    (member : entry ∈ next) : (∃ old ∈ map, old.1 = entry.1) ∨ ∃ state, op = insert entry.1 state := by
  cases op with
  | insert added value =>
    simp only [apply, ConnectionStateMap.insert] at applied
    split at applied
    · cases applied
    · cases applied
      rcases List.mem_append.mp member with old | new
      · exact .inl ⟨entry, old, rfl⟩
      · rw [List.mem_singleton.mp new]
        exact .inr ⟨value, rfl⟩
  | take taken =>
    cases applied
    obtain ⟨old, inMap, same⟩ :=
      List.mem_map.mp ((ConnectionStateMap.take_keys map taken).subset (List.mem_map_of_mem member))
    exact .inl ⟨old, inMap, same⟩
  | removeObsolete leastAcked =>
    cases applied
    exact .inl ⟨entry, (List.dropWhile_sublist _).subset member, rfl⟩

theorem mem_of_run (completed : (machine State).run map ops = some next) (member : entry ∈ next) :
    (∃ old ∈ map, old.1 = entry.1) ∨ ∃ state, insert entry.1 state ∈ ops := by
  induction ops generalizing map with
  | nil =>
    cases completed
    exact .inl ⟨entry, member, rfl⟩
  | cons op ops ih =>
    obtain ⟨middle, applied, rest⟩ := Option.bind_eq_some_iff.mp completed
    rcases ih rest with ⟨old, inMiddle, same⟩ | ⟨state, later⟩
    · rcases mem_of_apply applied inMiddle with ⟨older, inMap, sameState⟩ | ⟨state, is⟩
      · exact .inl ⟨older, inMap, sameState.trans same⟩
      · exact .inr ⟨state, List.mem_cons.mpr (.inl (same ▸ is.symm))⟩
    · exact .inr ⟨state, List.mem_cons_of_mem _ later⟩

theorem run_takes {Packet : Type} (number : Packet → Nat) (packets : List Packet) (map : ConnectionStateMap State) :
    (machine State).run map (packets.map fun packet => take (number packet)) =
      some (packets.foldl (fun map packet => (map.take (number packet)).2) map) := by
  induction packets generalizing map with
  | nil => rfl
  | cons packet packets ih => exact ih (map.take (number packet)).2

theorem run_spec (sorted : map.Sorted)
    (stored : ∀ pktNum state, map.stored pktNum = some state ↔ Remains history pktNum state)
    (completed : (machine State).run map ops = some next) :
    next.Sorted ∧ ∀ pktNum state, next.stored pktNum = some state ↔ Remains (history ++ ops) pktNum state := by
  induction ops generalizing map history with
  | nil =>
    cases completed
    rw [List.append_nil]
    exact ⟨sorted, stored⟩
  | cons op ops ih =>
    obtain ⟨middle, applied, rest⟩ := Option.bind_eq_some_iff.mp completed
    obtain ⟨middleSorted, middleStored⟩ := apply_spec sorted applied stored
    rw [← List.singleton_append, ← List.append_assoc]
    exact ih middleSorted middleStored rest

theorem take_iff_remains (completed : (machine State).run [] history = some map) (pktNum : Nat) (state : State) :
    (map.take pktNum).1 = some state ↔ Remains history pktNum state := by
  have nothing : ∀ pktNum state, ConnectionStateMap.stored ([] : ConnectionStateMap State) pktNum = some state ↔
      Remains [] pktNum state := by
    intro pktNum state
    rw [ConnectionStateMap.stored_nil]
    constructor
    · intro present
      cases present
    · rintro ⟨earlier, later, divided, _⟩
      simp at divided
  obtain ⟨sorted, stored⟩ := run_spec .nil nothing completed
  rw [(ConnectionStateMap.take_spec sorted pktNum).1]
  exact stored pktNum state

end StateMapOp

end Quiche.Bbr
