import Mathlib.Data.List.Induction
import Quiche.Recovery.Book

namespace Quiche

open Data

/-! What the loss detection timer is set to. -/

section Earliest

/-- One turn of the loops over the packet number spaces. -/
def keepEarlier (best next : Option Int × Epoch) : Option Int × Epoch :=
  if best.1.isNone || earlier next.1 best.1 then next else best

def pick (candidates : List (Option Int × Epoch)) : Option Int × Epoch := candidates.foldl keepEarlier (none, .initial)

variable {before after candidates : List (Option Int × Epoch)} {best next : Option Int × Epoch} {time : Int}
  {space : Epoch}

theorem pick_append_singleton (candidates : List (Option Int × Epoch)) (next : Option Int × Epoch) :
    pick (candidates ++ [next]) = keepEarlier (pick candidates) next := by
  rw [pick, List.foldl_append]
  rfl

theorem keepEarlier_eq_or (best next : Option Int × Epoch) :
    keepEarlier best next = next ∨ keepEarlier best next = best ∧ best.1.isSome = true ∧
      earlier next.1 best.1 = false := by
  rw [keepEarlier]
  split
  · exact .inl rfl
  · rename_i kept
    rw [Bool.or_eq_true, not_or] at kept
    refine .inr ⟨rfl, ?_, Bool.eq_false_iff.mpr kept.2⟩
    rw [← Option.not_isSome, Bool.not_eq_true', Bool.not_eq_false] at kept
    exact kept.1

theorem pick_mem (candidates : List (Option Int × Epoch)) (found : (pick candidates).1 = some time) :
    pick candidates ∈ candidates := by
  induction candidates using List.reverseRecOn with
  | nil => cases found
  | append_singleton candidates next ih =>
    rw [pick_append_singleton] at found ⊢
    rcases keepEarlier_eq_or (pick candidates) next with same | ⟨same, _, _⟩
    · rw [same]
      exact List.mem_append_right _ List.mem_cons_self
    · rw [same] at found ⊢
      exact List.mem_append_left _ (ih found)

/-- The time is that of the space, and none of the candidates is earlier. -/
structure Earliest (candidates : List (Option Int × Epoch)) (time : Int) (space : Epoch) : Prop where
  mem : (some time, space) ∈ candidates
  least : ∀ candidate ∈ candidates, ∀ other, candidate.1 = some other → time ≤ other

theorem pick_earliest (least : ∀ candidate ∈ before ++ (some time, space) :: after, ∀ other,
    candidate.1 = some other → time ≤ other) (present : ∀ candidate ∈ after, candidate.1.isSome = true) :
    ∃ place, pick (before ++ (some time, space) :: after) = (some time, place) ∧
      Earliest (before ++ (some time, space) :: after) time place := by
  induction after using List.reverseRecOn with
  | nil =>
    rw [pick_append_singleton]
    rcases keepEarlier_eq_or (pick before) (some time, space) with same | ⟨same, known, later⟩
    · exact ⟨space, same, List.mem_append_right _ List.mem_cons_self, least⟩
    · obtain ⟨other, is⟩ := Option.isSome_iff_exists.mp known
      have member := List.mem_append_left [(some time, space)] (pick_mem before is)
      have upper := least _ member other is
      rw [is, earlier, decide_eq_false_iff_not] at later
      have equal : other = time := by omega
      obtain ⟨place, pair⟩ : ∃ place, pick before = (some time, place) := ⟨(pick before).2, by rw [← equal, ← is]⟩
      rw [same, pair]
      rw [pair] at member
      exact ⟨place, rfl, member, least⟩
  | append_singleton after next ih =>
    have split : before ++ (some time, space) :: (after ++ [next]) = (before ++ (some time, space) :: after) ++
      [next] := by
      rw [List.append_assoc, List.cons_append]
    obtain ⟨earlierLeast, lastLeast⟩ := List.forall_mem_append.mp (split ▸ least)
    obtain ⟨earlierPresent, lastPresent⟩ := List.forall_mem_append.mp present
    obtain ⟨place, picked, earliest⟩ := ih earlierLeast earlierPresent
    obtain ⟨other, is⟩ := Option.isSome_iff_exists.mp (lastPresent next List.mem_cons_self)
    have upper := lastLeast next List.mem_cons_self other is
    have kept : keepEarlier (some time, place) next = (some time, place) := by
      rw [keepEarlier, is, earlier, if_neg]
      simp only [Option.isNone_some, Bool.false_or, decide_eq_true_eq]
      omega
    rw [split, pick_append_singleton, picked, kept]
    exact ⟨place, rfl, List.mem_append_left _ earliest.mem, split ▸ least⟩

theorem pick_eq_earliest (picked : pick candidates = (some time, space)) (earliest : Earliest candidates time space) :
    ∃ before place after, candidates = before ++ (some time, place) :: after ∧
      ∀ candidate ∈ after, candidate.1.isSome = true := by
  induction candidates using List.reverseRecOn with
  | nil => cases picked
  | append_singleton candidates next ih =>
    rw [pick_append_singleton] at picked
    rcases keepEarlier_eq_or (pick candidates) next with same | ⟨same, known, later⟩
    · rw [same] at picked
      rw [picked]
      exact ⟨candidates, space, [], rfl, nofun⟩
    · rw [same] at picked
      have present : next.1.isSome = true := by
        cases is : next.1 with
        | some other => rfl
        | none =>
          rw [is, picked] at later
          cases later
      have mem : (some time, space) ∈ candidates := picked ▸ pick_mem candidates (by rw [picked])
      obtain ⟨before, place, after, rfl, others⟩ := ih picked
        ⟨mem, fun candidate member => earliest.least candidate (List.mem_append_left _ member)⟩
      refine ⟨before, place, after ++ [next], by rw [List.append_assoc, List.cons_append], ?_⟩
      exact List.forall_mem_append.mpr ⟨others, List.forall_mem_singleton.mpr present⟩

theorem pick_present (nonempty : candidates ≠ []) (present : ∀ candidate ∈ candidates, candidate.1.isSome = true) :
    ∃ time space, pick candidates = (some time, space) ∧ Earliest candidates time space := by
  obtain ⟨time, least, space, member⟩ : ∃ time, (∀ candidate ∈ candidates, ∀ other, candidate.1 = some other →
      time ≤ other) ∧ ∃ space, (some time, space) ∈ candidates := by
    induction candidates with
    | nil => exact absurd rfl nonempty
    | cons first rest ih =>
      obtain ⟨is, others⟩ := List.forall_mem_cons.mp present
      obtain ⟨time, found⟩ := Option.isSome_iff_exists.mp is
      have pair : first = (some time, first.2) := Prod.ext found rfl
      by_cases single : rest = []
      · subst single
        refine ⟨time, fun candidate member other known => ?_, first.2, pair ▸ List.mem_cons_self⟩
        cases List.mem_singleton.mp member
        exact (Option.some.inj (found.symm.trans known)).le
      · obtain ⟨bound, least, space, member⟩ := ih single others
        rcases le_total time bound with earlier | later
        · refine ⟨time, fun candidate listed other known => ?_, first.2, pair ▸ List.mem_cons_self⟩
          rcases List.mem_cons.mp listed with rfl | listed
          · exact (Option.some.inj (found.symm.trans known)).le
          · exact earlier.trans (least candidate listed other known)
        · refine ⟨bound, fun candidate listed other known => ?_, space, List.mem_cons_of_mem _ member⟩
          rcases List.mem_cons.mp listed with rfl | listed
          · exact later.trans (Option.some.inj (found.symm.trans known)).le
          · exact least candidate listed other known
  obtain ⟨before, after, rfl⟩ := List.append_of_mem member
  obtain ⟨place, picked, earliest⟩ := pick_earliest least fun candidate listed =>
    present candidate (List.mem_append_right _ (List.mem_cons_of_mem _ listed))
  exact ⟨time, place, picked, earliest⟩

end Earliest

namespace Epoch

def all : List Epoch := [.initial, .handshake, .application]

theorem mem_all (epoch : Epoch) : epoch ∈ all := by
  cases epoch <;> decide

def later : Epoch → List Epoch
  | .initial => [.handshake, .application]
  | .handshake => [.application]
  | .application => []

theorem later_eq {before after : List Epoch} {epoch : Epoch} (split : all = before ++ epoch :: after) :
    epoch.later = after := by
  rcases before with _ | ⟨first, _ | ⟨second, _ | ⟨third, rest⟩⟩⟩
  · cases split
    rfl
  · cases split
    rfl
  · cases split
    rfl
  · cases rest <;> cases split

end Epoch

/-- The earliest of the times has none missing in a space behind it. -/
def Unmasked (times : Epoch → Option Int) : Prop :=
  ∃ space time, times space = some time ∧ (∀ other known, times other = some known → time ≤ known) ∧
    ∀ following ∈ space.later, (times following).isSome = true

instance : DecidablePred Unmasked := fun times =>
  inferInstanceAs (Decidable (∃ space, ∃ time ∈ times space, (∀ other, ∀ known ∈ times other, time ≤ known) ∧
    ∀ following ∈ space.later, (times following).isSome = true))

section LossTime

variable {lossTime : Epoch → Option Int}

def lossCandidates (lossTime : Epoch → Option Int) : List (Option Int × Epoch) :=
  Epoch.all.map fun epoch => (lossTime epoch, epoch)

theorem lossTimeAndSpace_eq (lossTime : Epoch → Option Int) :
    lossTimeAndSpace lossTime = pick (lossCandidates lossTime) := rfl

theorem mem_lossCandidates {candidate : Option Int × Epoch} :
    candidate ∈ lossCandidates lossTime ↔ lossTime candidate.2 = candidate.1 := by
  obtain ⟨time, epoch⟩ := candidate
  rw [lossCandidates, List.mem_map]
  constructor
  · rintro ⟨_, _, same⟩
    cases same
    rfl
  · intro same
    exact ⟨epoch, epoch.mem_all, Prod.ext same rfl⟩

theorem lossTimeAndSpace_of_unmasked (unmasked : Unmasked lossTime) :
    ∃ space time, lossTimeAndSpace lossTime = (some time, space) ∧ lossTime space = some time ∧
      ∀ other known, lossTime other = some known → time ≤ known := by
  obtain ⟨space, time, is, least, present⟩ := unmasked
  obtain ⟨before, split⟩ : ∃ before, lossCandidates lossTime =
      before ++ (some time, space) :: space.later.map fun epoch => (lossTime epoch, epoch) := by
    rw [← is]
    cases space with
    | initial => exact ⟨[], rfl⟩
    | handshake => exact ⟨[(lossTime .initial, .initial)], rfl⟩
    | application => exact ⟨[(lossTime .initial, .initial), (lossTime .handshake, .handshake)], rfl⟩
  have everyLeast : ∀ candidate ∈ lossCandidates lossTime, ∀ other, candidate.1 = some other → time ≤ other :=
    fun candidate member other known => least candidate.2 other ((mem_lossCandidates.mp member).trans known)
  have everyPresent : ∀ candidate ∈ space.later.map fun epoch => (lossTime epoch, epoch), candidate.1.isSome = true := by
    intro candidate member
    obtain ⟨epoch, following, rfl⟩ := List.mem_map.mp member
    exact present epoch following
  rw [split] at everyLeast
  obtain ⟨place, picked, earliest⟩ := pick_earliest everyLeast everyPresent
  rw [← split] at picked earliest
  exact ⟨place, time, picked, mem_lossCandidates.mp earliest.mem, least⟩

theorem unmasked_of_lossTimeAndSpace {space : Epoch} {time : Int}
    (found : lossTimeAndSpace lossTime = (some time, space))
    (least : ∀ other known, lossTime other = some known → time ≤ known) : Unmasked lossTime := by
  rw [lossTimeAndSpace_eq] at found
  have mem : (some time, space) ∈ lossCandidates lossTime := by
    rw [← found]
    exact pick_mem _ (by rw [found])
  obtain ⟨before, place, after, split, present⟩ := pick_eq_earliest found
    ⟨mem, fun candidate member other known => least candidate.2 other ((mem_lossCandidates.mp member).trans known)⟩
  have member : (some time, place) ∈ lossCandidates lossTime := by
    rw [split]
    exact List.mem_append_right _ List.mem_cons_self
  have order : Epoch.all = before.map (·.2) ++ place :: after.map (·.2) :=
    (congrArg (List.map Prod.snd) split).trans List.map_append
  refine ⟨place, time, mem_lossCandidates.mp member, least, fun following later => ?_⟩
  rw [Epoch.later_eq order] at later
  obtain ⟨candidate, follows, rfl⟩ := List.mem_map.mp later
  have known : candidate ∈ lossCandidates lossTime := by
    rw [split]
    exact List.mem_append_right _ (List.mem_cons_of_mem _ follows)
  rw [mem_lossCandidates.mp known]
  exact present candidate follows

theorem lossTimeAndSpace_none (nothing : ∀ epoch, lossTime epoch = none) : (lossTimeAndSpace lossTime).1 = none := by
  simp [lossTimeAndSpace, nothing]

end LossTime

structure Clock where
  lossTime : Epoch → Option Int
  inFlight : Epoch → Nat
  lastSent : Epoch → Option Int
  isZero : Bool
  duration : Nat
  maxAckDelay : Nat

namespace Clock

variable {clock : Clock} {completed : Bool} {handshakeStatus : HandshakeStatus} {now : Int} {old : Option Int}

def eligible (completed : Bool) : List Epoch := [.initial, .handshake] ++ if completed then [.application] else []

def backedOff (clock : Clock) (epoch : Epoch) : Nat :=
  if epoch = .application then clock.duration + clock.maxAckDelay else clock.duration

def candidate (clock : Clock) (epoch : Epoch) : Option Int × Epoch :=
  ((clock.lastSent epoch).map fun sent => sent + clock.backedOff epoch, epoch)

def candidates (clock : Clock) (spaces : List Epoch) : List (Option Int × Epoch) :=
  (spaces.filter (clock.inFlight · ≠ 0)).map clock.candidate

def ptoTimeAndSpace (clock : Clock) (handshakeStatus : HandshakeStatus) (now : Int) : Option Int × Epoch :=
  if clock.isZero then
    (some (now + clock.duration), if handshakeStatus.hasHandshakeKeys then .handshake else .initial)
  else
    Quiche.ptoTimeAndSpace clock.inFlight clock.lastSent handshakeStatus.completed clock.duration clock.maxAckDelay
      [.initial, .handshake, .application] none .initial

/-- What `set_loss_detection_timer` leaves in the timer. -/
def timer (clock : Clock) (handshakeStatus : HandshakeStatus) (now : Int) (old : Option Int) : Option Int :=
  match (lossTimeAndSpace clock.lossTime).1 with
  | some time => some time
  | none =>
    if clock.isZero && handshakeStatus.peerVerifiedAddress then none
    else (clock.ptoTimeAndSpace handshakeStatus now).1.or old

section

variable (clock : Clock) (completed : Bool)

theorem ptoTimeAndSpace_cons (rest : List Epoch) (best : Option Int × Epoch)
    {epoch : Epoch} (flying : clock.inFlight epoch ≠ 0) (early : epoch ≠ .application) :
    Quiche.ptoTimeAndSpace clock.inFlight clock.lastSent completed clock.duration clock.maxAckDelay (epoch :: rest)
      best.1 best.2 =
    Quiche.ptoTimeAndSpace clock.inFlight clock.lastSent completed clock.duration clock.maxAckDelay rest
      (keepEarlier best (clock.candidate epoch)).1 (keepEarlier best (clock.candidate epoch)).2 := by
  rw [Quiche.ptoTimeAndSpace, if_neg flying, if_neg fun is => early is.1, if_neg early, candidate, backedOff,
    if_neg early, keepEarlier]
  dsimp only
  split <;> rfl

theorem ptoTimeAndSpace_application (best : Option Int × Epoch) (flying : clock.inFlight .application ≠ 0) :
    Quiche.ptoTimeAndSpace clock.inFlight clock.lastSent completed clock.duration clock.maxAckDelay [.application]
      best.1 best.2 =
    if completed then keepEarlier best (clock.candidate .application) else best := by
  rw [Quiche.ptoTimeAndSpace, if_neg flying]
  cases completed with
  | false => rfl
  | true =>
    rw [if_neg (by simp), if_pos rfl, if_pos rfl, candidate, backedOff, if_pos rfl, keepEarlier]
    dsimp only
    split <;> rfl

theorem ptoTimeAndSpace_eq (best : Option Int × Epoch) {spaces : List Epoch}
    (early : ∀ epoch ∈ spaces, epoch ≠ .application) :
    Quiche.ptoTimeAndSpace clock.inFlight clock.lastSent completed clock.duration clock.maxAckDelay
      (spaces ++ [.application]) best.1 best.2 =
    (clock.candidates (spaces ++ if completed then [.application] else [])).foldl keepEarlier best := by
  induction spaces generalizing best with
  | nil =>
    by_cases empty : clock.inFlight .application = 0
    · rw [List.nil_append, Quiche.ptoTimeAndSpace, if_pos empty]
      cases completed <;> simp [candidates, empty] <;> rfl
    · rw [List.nil_append, ptoTimeAndSpace_application clock completed best empty]
      cases completed <;> simp [candidates, empty]
  | cons epoch spaces ih =>
    obtain ⟨first, others⟩ := List.forall_mem_cons.mp early
    by_cases empty : clock.inFlight epoch = 0
    · rw [List.cons_append, Quiche.ptoTimeAndSpace, if_pos empty, ih best others, List.cons_append,
        candidates, candidates, List.filter_cons_of_neg (by simpa using empty)]
    · rw [List.cons_append, ptoTimeAndSpace_cons clock completed _ best empty first, ih _ others, List.cons_append,
        candidates, candidates, List.filter_cons_of_pos (by simpa using empty), List.map_cons, List.foldl_cons]

end

theorem mem_candidates {spaces : List Epoch} {chosen : Option Int × Epoch} : chosen ∈ clock.candidates spaces ↔
      chosen.2 ∈ spaces ∧ clock.inFlight chosen.2 ≠ 0 ∧ chosen = clock.candidate chosen.2 := by
  rw [candidates, List.mem_map]
  constructor
  · rintro ⟨epoch, member, rfl⟩
    obtain ⟨listed, flying⟩ := List.mem_filter.mp member
    exact ⟨listed, of_decide_eq_true flying, rfl⟩
  · rintro ⟨listed, flying, same⟩
    exact ⟨chosen.2, List.mem_filter.mpr ⟨listed, decide_eq_true flying⟩, same.symm⟩

theorem timer_pto (nothing : ∀ epoch, clock.lossTime epoch = none) (flying : clock.isZero = false)
    (someFlying : ∃ epoch ∈ eligible handshakeStatus.completed, clock.inFlight epoch ≠ 0)
    (known : ∀ epoch ∈ eligible handshakeStatus.completed, clock.inFlight epoch ≠ 0 →
      (clock.lastSent epoch).isSome = true) :
    ∃ time space, clock.timer handshakeStatus now old = some time ∧
      Earliest (clock.candidates (eligible handshakeStatus.completed)) time space := by
  obtain ⟨epoch, listed, counted⟩ := someFlying
  have member : clock.candidate epoch ∈ clock.candidates (eligible handshakeStatus.completed) :=
    mem_candidates.mpr ⟨listed, counted, rfl⟩
  obtain ⟨time, space, picked, earliest⟩ := pick_present (List.ne_nil_of_mem member) fun candidate member => by
    obtain ⟨listed, counted, same⟩ := mem_candidates.mp member
    rw [same, Clock.candidate, Option.isSome_map]
    exact known candidate.2 listed counted
  refine ⟨time, space, ?_, earliest⟩
  have early : ∀ epoch ∈ [Epoch.initial, .handshake], epoch ≠ .application := by decide
  have chosen : clock.ptoTimeAndSpace handshakeStatus now = (some time, space) := by
    rw [ptoTimeAndSpace, flying, if_neg Bool.false_ne_true, ← picked]
    exact ptoTimeAndSpace_eq clock handshakeStatus.completed (none, .initial) early
  rw [timer, lossTimeAndSpace_none nothing, flying, Bool.false_and]
  dsimp only
  rw [if_neg Bool.false_ne_true, chosen]
  rfl

end Clock

end Quiche
