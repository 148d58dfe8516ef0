import Mathlib.Data.List.Basic

namespace Quiche.Data

/-! What was sent over an unreliable channel, in the order of sending, and what became of
it. The receiver acknowledges it, or the sender gives it up as lost. -/

inductive Fate where
  | inFlight
  | acked
  | lost
deriving DecidableEq

theorem Fate.acked_ne : Fate.acked ≠ .inFlight := nofun

theorem Fate.lost_ne : Fate.lost ≠ .inFlight := nofun

abbrev Ledger (Item : Type) := List (Item × Fate)

namespace Ledger

variable {Item : Type} {ledger next : Ledger Item} {item : Item} {index : Nat} {fate : Fate}
  {wanted : Item → Prop}

def send (ledger : Ledger Item) (item : Item) : Ledger Item := ledger ++ [(item, .inFlight)]

def resolve (ledger : Ledger Item) (index : Nat) (fate : Fate) : Option (Item × Ledger Item) :=
  match ledger[index]? with
  | some (item, .inFlight) => some (item, ledger.set index (item, fate))
  | _ => none

/-- An item that is wanted was sent and is not lost. -/
def Holds (ledger : Ledger Item) (wanted : Item → Prop) : Prop := ∃ entry ∈ ledger, wanted entry.1 ∧ entry.2 ≠ .lost

instance (ledger : Ledger Item) [DecidablePred wanted] : Decidable (ledger.Holds wanted) :=
  inferInstanceAs (Decidable (∃ entry ∈ ledger, wanted entry.1 ∧ entry.2 ≠ .lost))

theorem resolve_spec (resolved : ledger.resolve index fate = some (item, next)) :
    ledger[index]? = some (item, .inFlight) ∧ next = ledger.set index (item, fate) := by
  rw [resolve] at resolved
  split at resolved
  · rename_i found
    cases resolved
    exact ⟨found, rfl⟩
  · cases resolved

theorem mem_of_resolve (resolved : ledger.resolve index fate = some (item, next)) : (item, .inFlight) ∈ ledger :=
  List.mem_of_getElem? (resolve_spec resolved).1

theorem item_mem_of_set {known : Fate} (found : ledger[index]? = some (item, known)) {entry : Item × Fate}
    (member : entry ∈ ledger.set index (item, fate)) : ∃ earlier ∈ ledger, earlier.1 = entry.1 := by
  rcases List.mem_or_eq_of_mem_set member with before | rfl
  · exact ⟨entry, before, rfl⟩
  · exact ⟨(item, known), List.mem_of_getElem? found, rfl⟩

theorem item_mem_of_resolve (resolved : ledger.resolve index fate = some (item, next)) {entry : Item × Fate}
    (member : entry ∈ next) : ∃ earlier ∈ ledger, earlier.1 = entry.1 := by
  obtain ⟨found, rfl⟩ := resolve_spec resolved
  exact item_mem_of_set found member

theorem Holds.send (holds : ledger.Holds wanted) (item : Item) : (ledger.send item).Holds wanted := by
  obtain ⟨entry, member, is, kept⟩ := holds
  exact ⟨entry, List.mem_append_left _ member, is, kept⟩

theorem holds_send (is : wanted item) : (ledger.send item).Holds wanted :=
  ⟨(item, .inFlight), List.mem_append_right _ (List.mem_singleton.mpr rfl), is, nofun⟩

theorem Holds.set {known : Fate} (holds : ledger.Holds wanted) (found : ledger[index]? = some (item, known))
    (kept : wanted item → known ≠ .lost → fate ≠ .lost) : Holds (ledger.set index (item, fate)) wanted := by
  obtain ⟨entry, member, is, good⟩ := holds
  obtain ⟨place, bound, rfl⟩ := List.mem_iff_getElem.mp member
  by_cases same : place = index
  · subst same
    rw [List.getElem?_eq_getElem bound] at found
    rw [Option.some.inj found] at is good
    exact ⟨(item, fate), List.mem_set bound _, is, kept is good⟩
  · refine ⟨_, List.mem_iff_getElem.mpr ⟨place, by rwa [List.length_set], ?_⟩, is, good⟩
    exact List.getElem_set_ne (Ne.symm same) _

theorem Holds.acked (holds : ledger.Holds wanted) (resolved : ledger.resolve index .acked = some (item, next)) :
    next.Holds wanted := by
  obtain ⟨found, rfl⟩ := resolve_spec resolved
  exact holds.set found fun _ _ => nofun

theorem Holds.lost (holds : ledger.Holds wanted) (resolved : ledger.resolve index .lost = some (item, next))
    (other : ¬ wanted item) : next.Holds wanted := by
  obtain ⟨found, rfl⟩ := resolve_spec resolved
  exact holds.set found fun is => absurd is other

section Report

def report (ledger : Ledger Item) (index : Nat) (fate : Fate) : Option (Item × Ledger Item) :=
  (ledger[index]?).map fun (item, known) =>
    (item, ledger.set index (item, if known = .acked then .acked else fate))

section

variable (reported : ledger.report index fate = some (item, next))

include reported

theorem report_spec :
    ∃ known, ledger[index]? = some (item, known) ∧
      next = ledger.set index (item, if known = .acked then .acked else fate) := by
  obtain ⟨⟨entry, known⟩, found, same⟩ := Option.map_eq_some_iff.mp reported
  cases same
  exact ⟨known, found, rfl⟩

theorem item_mem_of_report {entry : Item × Fate}
    (member : entry ∈ next) : ∃ earlier ∈ ledger, earlier.1 = entry.1 := by
  obtain ⟨known, found, rfl⟩ := report_spec reported
  exact item_mem_of_set found member

theorem mem_of_report : ∃ entry ∈ ledger, entry.1 = item := by
  obtain ⟨known, found, _⟩ := report_spec reported
  exact ⟨_, List.mem_of_getElem? found, rfl⟩

end

theorem Holds.report (holds : ledger.Holds wanted) (reported : ledger.report index fate = some (item, next))
    (kept : wanted item → fate ≠ .lost) : next.Holds wanted := by
  obtain ⟨known, found, rfl⟩ := report_spec reported
  refine holds.set found fun is _ => ?_
  split
  · nofun
  · exact kept is

end Report

section Settle

def withFate (ledger : Ledger Item) (fate : Fate) : List Item := (ledger.filter (·.2 = fate)).map (·.1)

theorem withFate_cons (item : Item) (known fate : Fate) (ledger : Ledger Item) :
    withFate ((item, known) :: ledger) fate =
      if known = fate then item :: ledger.withFate fate else ledger.withFate fate := by
  rw [withFate, List.filter_cons]
  by_cases same : known = fate
  · rw [if_pos (decide_eq_true same), if_pos same]
    rfl
  · rw [if_neg (by simpa using same), if_neg same]
    rfl

theorem withFate_append (ledger other : Ledger Item) (fate : Fate) :
    withFate (ledger ++ other) fate = ledger.withFate fate ++ other.withFate fate := by
  rw [withFate, List.filter_append, List.map_append]
  rfl

theorem mem_withFate : item ∈ ledger.withFate fate ↔ (item, fate) ∈ ledger := by
  rw [withFate, List.mem_map]
  constructor
  · rintro ⟨⟨other, known⟩, member, rfl⟩
    obtain ⟨member, same⟩ := List.mem_filter.mp member
    rw [← of_decide_eq_true same]
    exact member
  · intro member
    exact ⟨(item, fate), List.mem_filter.mpr ⟨member, decide_eq_true rfl⟩, rfl⟩

def settle (ledger : Ledger Item) (wanted : Item → Bool) (fate : Fate) : Ledger Item :=
  ledger.map fun (item, known) => if known = .inFlight ∧ wanted item then (item, fate) else (item, known)

theorem settle_cons (known fate : Fate) (wanted : Item → Bool) : settle ((item, known) :: ledger) wanted fate =
    (if known = .inFlight ∧ wanted item then (item, fate) else (item, known)) :: ledger.settle wanted fate := rfl

theorem settle_items (ledger : Ledger Item) (wanted : Item → Bool) (fate : Fate) :
    (ledger.settle wanted fate).map (·.1) = ledger.map (·.1) := by
  induction ledger with
  | nil => rfl
  | cons entry ledger ih =>
    obtain ⟨item, known⟩ := entry
    rw [settle_cons, List.map_cons, List.map_cons, ih]
    split <;> rfl

/-- Some items in flight, in the order of sending, meet their fate. -/
inductive Settles (fate : Fate) : Ledger Item → List Item → Ledger Item → Prop where
  | nil : Settles fate [] [] []
  | skip {ledger newly next} (entry : Item × Fate) (rest : Settles fate ledger newly next) :
      Settles fate (entry :: ledger) newly (entry :: next)
  | take {ledger newly next} (item : Item) (rest : Settles fate ledger newly next) :
      Settles fate ((item, .inFlight) :: ledger) (item :: newly) ((item, fate) :: next)

namespace Settles

variable {newly later : List Item} {last other : Ledger Item}

theorem refl (fate : Fate) (ledger : Ledger Item) : Settles fate ledger [] ledger := by
  induction ledger with
  | nil => exact .nil
  | cons entry ledger ih => exact .skip entry ih

theorem append (first : Settles fate ledger newly next) (second : Settles fate other later last) :
    Settles fate (ledger ++ other) (newly ++ later) (next ++ last) := by
  induction first with
  | nil => exact second
  | skip entry _ ih => exact .skip entry ih
  | take item _ ih => exact .take item ih

theorem trans (resolves : fate ≠ .inFlight) (first : Settles fate ledger newly next)
    (second : Settles fate next later last) : ∃ all, all.Perm (newly ++ later) ∧ Settles fate ledger all last := by
  induction first generalizing later last with
  | nil => exact ⟨later, .refl _, second⟩
  | skip entry first ih =>
    cases second with
    | skip _ rest =>
      obtain ⟨all, perm, settles⟩ := ih rest
      exact ⟨all, perm, .skip entry settles⟩
    | take item rest =>
      obtain ⟨all, perm, settles⟩ := ih rest
      exact ⟨item :: all, (perm.cons item).trans List.perm_middle.symm, .take item settles⟩
  | take item first ih =>
    cases second with
    | skip _ rest =>
      obtain ⟨all, perm, settles⟩ := ih rest
      exact ⟨item :: all, perm.cons item, .take item settles⟩
    | take _ _ => exact absurd rfl resolves

theorem items (settles : Settles fate ledger newly next) : next.map (·.1) = ledger.map (·.1) := by
  induction settles with
  | nil => rfl
  | skip entry _ ih => rw [List.map_cons, List.map_cons, ih]
  | take item _ ih => rw [List.map_cons, List.map_cons, ih]

section

variable (resolves : fate ≠ .inFlight) (settles : Settles fate ledger newly next)

include resolves settles

theorem inFlight : (ledger.withFate .inFlight).Perm (newly ++ next.withFate .inFlight) := by
  induction settles with
  | nil => exact .refl _
  | skip entry _ ih =>
    obtain ⟨item, known⟩ := entry
    rw [withFate_cons, withFate_cons]
    split
    · exact (ih.cons item).trans List.perm_middle.symm
    · exact ih
  | take item _ ih =>
    rw [withFate_cons, withFate_cons, if_pos rfl, if_neg resolves]
    exact ih.cons item

theorem mem_of_inFlight
    {entry : Item × Fate} (member : entry ∈ next) (flying : entry.2 = .inFlight) : entry ∈ ledger := by
  induction settles with
  | nil => exact member
  | skip first _ ih =>
    rcases List.mem_cons.mp member with rfl | member
    · exact List.mem_cons_self
    · exact List.mem_cons_of_mem _ (ih member)
  | take item _ ih =>
    rcases List.mem_cons.mp member with rfl | member
    · exact absurd flying resolves
    · exact List.mem_cons_of_mem _ (ih member)

theorem settled : (next.withFate fate).Perm (ledger.withFate fate ++ newly) := by
  induction settles with
  | nil => exact .refl _
  | skip entry _ ih =>
    obtain ⟨item, known⟩ := entry
    rw [withFate_cons, withFate_cons]
    split
    · exact ih.cons item
    · exact ih
  | take item _ ih =>
    rw [withFate_cons, withFate_cons, if_pos rfl, if_neg (Ne.symm resolves)]
    exact (ih.cons item).trans List.perm_middle.symm

end

theorem others {known : Fate} (settles : Settles fate ledger newly next) (resolved : known ≠ .inFlight)
    (different : known ≠ fate) : next.withFate known = ledger.withFate known := by
  induction settles with
  | nil => rfl
  | skip entry _ ih =>
    obtain ⟨item, fate⟩ := entry
    rw [withFate_cons, withFate_cons, ih]
  | take item _ ih =>
    rw [withFate_cons, withFate_cons, if_neg (Ne.symm different), if_neg (Ne.symm resolved), ih]

theorem eq_settle {wanted : Item → Bool} (settles : Settles fate ledger newly next)
    (were : ∀ item ∈ newly, wanted item = true) (are : ∀ entry ∈ next, entry.2 = .inFlight → wanted entry.1 = false) :
    next = ledger.settle wanted fate := by
  induction settles with
  | nil => rfl
  | skip entry _ ih =>
    obtain ⟨item, known⟩ := entry
    obtain ⟨first, rest⟩ := List.forall_mem_cons.mp are
    rw [settle_cons, if_neg, ih were rest]
    rintro ⟨flying, wanted⟩
    rw [first flying] at wanted
    cases wanted
  | take item _ ih =>
    obtain ⟨first, rest⟩ := List.forall_mem_cons.mp were
    rw [settle_cons, if_pos ⟨rfl, first⟩, ih rest (List.forall_mem_cons.mp are).2]

end Settles

end Settle

end Ledger

end Quiche.Data
