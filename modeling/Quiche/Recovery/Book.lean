import Mathlib.Algebra.BigOperators.Group.List.Basic
import Mathlib.Data.List.Nodup
import Quiche.Data.Intervals
import Quiche.Data.Ledger
import Quiche.Recovery

namespace Quiche

open Data

/-! The packets of a packet number space as a ledger that none ever leaves. -/

namespace Sent

def flying (packets : List Sent) : List Sent := packets.filter (·.inFlight)

def bytes (packets : List Sent) : Nat := ((flying packets).map (·.size)).sum

def count (packets : List Sent) : Nat := (flying packets).length

variable {packets others : List Sent}

theorem bytes_append : bytes (packets ++ others) = bytes packets + bytes others := by
  rw [bytes, flying, List.filter_append, List.map_append, List.sum_append]
  rfl

theorem count_append : count (packets ++ others) = count packets + count others := by
  rw [count, flying, List.filter_append, List.length_append]
  rfl

theorem bytes_perm (perm : packets.Perm others) : bytes packets = bytes others := ((perm.filter _).map _).sum_eq

theorem count_perm (perm : packets.Perm others) : count packets = count others := (perm.filter _).length_eq

theorem bytes_singleton (sent : Sent) : bytes [sent] = if sent.inFlight then sent.size else 0 := by
  rw [bytes, flying, List.filter_singleton]
  cases sent.inFlight <;> rfl

theorem count_singleton (sent : Sent) : count [sent] = if sent.inFlight then 1 else 0 := by
  rw [count, flying, List.filter_singleton]
  cases sent.inFlight <;> rfl

/-- The packet was just sent. -/
structure Fresh (sent : Sent) : Prop where
  unacked : sent.timeAcked = none
  unlost : sent.timeLost = none
  probe : sent.isPmtudProbe = true → sent.inFlight = true

instance (sent : Sent) : Decidable sent.Fresh :=
  decidable_of_iff (sent.timeAcked = none ∧ sent.timeLost = none ∧ (sent.isPmtudProbe = true → sent.inFlight = true))
    ⟨fun fresh => ⟨fresh.1, fresh.2.1, fresh.2.2⟩, fun fresh => ⟨fresh.unacked, fresh.unlost, fresh.probe⟩⟩

theorem Fresh.not_acked {sent : Sent} (fresh : sent.Fresh) : ¬ sent.timeAcked.isSome = true := by
  rw [fresh.unacked]
  exact Bool.false_ne_true

theorem Fresh.not_lost {sent : Sent} (fresh : sent.Fresh) : ¬ sent.timeLost.isSome = true := by
  rw [fresh.unlost]
  exact Bool.false_ne_true

theorem Fresh.not_resolved {sent : Sent} (fresh : sent.Fresh) :
    ¬ (sent.timeAcked.isSome || sent.timeLost.isSome) = true := by
  rw [fresh.unacked, fresh.unlost]
  exact Bool.false_ne_true

end Sent

abbrev Book := Ledger Sent

structure Tally where
  count : Nat
  bytes : Nat
  frames : List Frame
  numbers : List Nat

/-- The packets that are newly resolved are added to the tally. -/
structure Gains (old new : Tally) (newly : List Sent) : Prop where
  count : new.count + Sent.count newly = old.count
  bytes : new.bytes = old.bytes + Sent.bytes newly
  frames : ∃ added, new.frames = old.frames ++ added ∧ added.Perm (newly.flatMap Sent.frames)
  numbers : ∀ number, number ∈ new.numbers ↔ number ∈ old.numbers ∨ ∃ sent ∈ newly, sent.pktNum = number

namespace Gains

variable {old middle new : Tally} {newly later all : List Sent}

theorem refl (tally : Tally) : Gains tally tally [] :=
  ⟨rfl, rfl, ⟨[], (List.append_nil _).symm, .refl _⟩, fun number => by simp⟩

theorem trans (first : Gains old middle newly) (second : Gains middle new later) (perm : all.Perm (newly ++ later)) :
    Gains old new all := by
  obtain ⟨added, appended, order⟩ := first.frames
  obtain ⟨more, extended, following⟩ := second.frames
  refine ⟨?_, ?_, ⟨added ++ more, ?_, ?_⟩, fun number => ?_⟩
  · rw [Sent.count_perm perm, Sent.count_append, ← first.count, ← second.count]
    omega
  · rw [Sent.bytes_perm perm, Sent.bytes_append, second.bytes, first.bytes]
    omega
  · rw [extended, appended, List.append_assoc]
  · refine (order.append following).trans ?_
    rw [← List.flatMap_append]
    exact (perm.flatMap_right _).symm
  · rw [second.numbers, first.numbers, or_assoc]
    refine or_congr_right ⟨?_, ?_⟩
    · rintro (⟨sent, member, same⟩ | ⟨sent, member, same⟩)
      · exact ⟨sent, perm.mem_iff.mpr (List.mem_append_left _ member), same⟩
      · exact ⟨sent, perm.mem_iff.mpr (List.mem_append_right _ member), same⟩
    · rintro ⟨sent, member, same⟩
      rcases List.mem_append.mp (perm.mem_iff.mp member) with early | late
      · exact .inl ⟨sent, early, same⟩
      · exact .inr ⟨sent, late, same⟩

theorem single {sent : Sent} (count : new.count + (if sent.inFlight then 1 else 0) = old.count)
    (bytes : new.bytes = old.bytes + if sent.inFlight then sent.size else 0)
    (frames : new.frames = old.frames ++ sent.frames)
    (numbers : ∀ number, number ∈ new.numbers ↔ number ∈ old.numbers ∨ number = sent.pktNum) :
    Gains old new [sent] := by
  refine ⟨?_, ?_, ⟨sent.frames, frames, ?_⟩, fun number => ?_⟩
  · rw [Sent.count_singleton, count]
  · rw [Sent.bytes_singleton, bytes]
  · rw [List.flatMap_singleton]
  · rw [numbers]
    simp [eq_comm]

end Gains

structure Space where
  ackedFrames : List Frame
  lostFrames : List Frame

def Space.frames (space : Space) : Fate → List Frame
  | .inFlight => []
  | .acked => space.ackedFrames
  | .lost => space.lostFrames

/-- The frames of one fate are replaced. -/
def Space.put (space : Space) (frames : List Frame) : Fate → Space
  | .inFlight => space
  | .acked => { space with ackedFrames := frames }
  | .lost => { space with lostFrames := frames }

theorem Space.frames_put_of_ne (space : Space) (frames : List Frame) {fate other : Fate} (different : other ≠ fate) :
    (space.put frames fate).frames other = space.frames other := by
  cases fate <;> cases other <;> first | rfl | exact absurd rfl different

theorem Space.frames_put (space : Space) (frames : List Frame) {fate : Fate} (resolves : fate ≠ .inFlight) :
    (space.put frames fate).frames fate = frames := by
  cases fate with
  | inFlight => exact absurd rfl resolves
  | acked => rfl
  | lost => rfl

/-- The frames of newly resolved packets are queued for their fate. -/
structure Moves (old new : Space) (book after : Book) : Prop where
  queued : ∀ fate, fate ≠ .inFlight → ∃ newly added, (after.withFate fate).Perm (book.withFate fate ++ newly) ∧
    new.frames fate = old.frames fate ++ added ∧ added.Perm (newly.flatMap Sent.frames)

namespace Moves

variable {old middle new : Space} {book between after : Book}

theorem refl (space : Space) (book : Book) : Moves space space book book :=
  ⟨fun _ _ => ⟨[], [], by rw [List.append_nil], (List.append_nil _).symm, .refl _⟩⟩

theorem trans (first : Moves old middle book between) (second : Moves middle new between after) :
    Moves old new book after := by
  constructor
  intro fate resolves
  obtain ⟨newly, added, met, queued, order⟩ := first.queued fate resolves
  obtain ⟨later, more, following, requeued, reorder⟩ := second.queued fate resolves
  refine ⟨newly ++ later, added ++ more, ?_, ?_, ?_⟩
  · rw [← List.append_assoc]
    exact following.trans (met.append_right later)
  · rw [requeued, queued, List.append_assoc]
  · rw [List.flatMap_append]
    exact order.append reorder

theorem send (space : Space) (book : Book) (sent : Sent) : Moves space space book (book.send sent) := by
  constructor
  intro fate resolves
  refine ⟨[], [], ?_, (List.append_nil _).symm, .refl _⟩
  rw [Ledger.send, Ledger.withFate_append, Ledger.withFate_cons, if_neg (Ne.symm resolves)]
  exact .refl _

theorem of_settles {fate : Fate} (resolves : fate ≠ .inFlight) {newly : List Sent}
    (settles : Ledger.Settles fate book newly after)
    (queued : ∃ added, new.frames fate = old.frames fate ++ added ∧ added.Perm (newly.flatMap Sent.frames))
    (others : ∀ other, other ≠ fate → new.frames other = old.frames other) : Moves old new book after := by
  constructor
  intro other known
  by_cases same : other = fate
  · subst same
    obtain ⟨added, appended, order⟩ := queued
    exact ⟨newly, added, settles.settled resolves, appended, order⟩
  · refine ⟨[], [], ?_, ?_, .refl _⟩
    · rw [settles.others known same, List.append_nil]
    · rw [others other same, List.append_nil]

end Moves

namespace Book

variable {book next : Book} {newly : List Sent} {fate : Fate}

def unresolved (book : Book) : List Sent := book.withFate .inFlight

def bytes (book : Book) : Nat := Sent.bytes book.unresolved

def count (book : Book) : Nat := Sent.count book.unresolved

/-- The packets are in the order of their numbers. -/
def Sorted (book : Book) : Prop := book.Pairwise fun left right => left.1.pktNum < right.1.pktNum

theorem Sorted.of_items (sorted : book.Sorted) (items : next.map (·.1) = book.map (·.1)) : next.Sorted := by
  have numbers : (book.map (·.1)).Pairwise (fun left right : Sent => left.pktNum < right.pktNum) :=
    List.pairwise_map.mpr sorted
  rw [← items, List.pairwise_map] at numbers
  exact numbers

section

variable (resolves : fate ≠ .inFlight) (settles : Ledger.Settles fate book newly next)

include resolves settles

theorem bytes_settles : book.bytes = Sent.bytes newly + next.bytes := by
  rw [bytes, bytes, ← Sent.bytes_append]
  exact Sent.bytes_perm (settles.inFlight resolves)

theorem count_settles : book.count = Sent.count newly + next.count := by
  rw [count, count, ← Sent.count_append]
  exact Sent.count_perm (settles.inFlight resolves)

end

theorem count_cons (entry : Sent × Fate) (book : Book) : count (entry :: book) = count [entry] + count book := by
  rw [count, unresolved, ← List.singleton_append, Ledger.withFate_append, Sent.count_append]
  rfl

theorem count_singleton (sent : Sent) : count [(sent, .inFlight)] = if sent.inFlight then 1 else 0 :=
  Sent.count_singleton sent

theorem count_append (book other : Book) : count (book ++ other) = count book + count other := by
  rw [count, unresolved, Ledger.withFate_append, Sent.count_append]
  rfl

theorem bytes_append (book other : Book) : bytes (book ++ other) = bytes book + bytes other := by
  rw [bytes, unresolved, Ledger.withFate_append, Sent.bytes_append]
  rfl

/-- A packet that elicits an acknowledgement is in flight. -/
def Elicits (book : Book) : Prop := ∃ sent ∈ book.unresolved, sent.inFlight = true ∧ sent.ackEliciting = true

theorem Elicits.count_ne_zero (elicits : book.Elicits) : book.count ≠ 0 := by
  obtain ⟨sent, member, flying, _⟩ := elicits
  exact Nat.ne_of_gt (List.length_pos_of_mem (List.mem_filter.mpr ⟨member, flying⟩))

theorem Elicits.of_settles (resolves : fate ≠ .inFlight) (settles : Ledger.Settles fate book newly next)
    (elicits : next.Elicits) : book.Elicits := by
  obtain ⟨sent, member, both⟩ := elicits
  exact ⟨sent, (settles.inFlight resolves).mem_iff.mpr (List.mem_append_right _ member), both⟩

theorem Elicits.of_send {sent : Sent} (elicits : Elicits (book.send sent)) :
    book.Elicits ∨ sent.inFlight = true ∧ sent.ackEliciting = true := by
  obtain ⟨other, member, both⟩ := elicits
  rw [unresolved, Ledger.send, Ledger.withFate_append] at member
  rcases List.mem_append.mp member with early | last
  · exact .inl ⟨other, early, both⟩
  · cases List.mem_singleton.mp last
    exact .inr both

theorem unresolved_of_resolved (resolved : ∀ entry ∈ book, entry.2 ≠ .inFlight) : book.unresolved = [] := by
  rw [unresolved, List.eq_nil_iff_forall_not_mem]
  intro sent member
  exact resolved _ (Ledger.mem_withFate.mp member) rfl

variable {after : Book}

theorem Sorted.eq_of_pktNum (sorted : book.Sorted) {left right : Sent × Fate} (member : left ∈ book)
    (other : right ∈ book) (same : left.1.pktNum = right.1.pktNum) : left = right := by
  have distinct : (book.map (·.1.pktNum)).Nodup := List.pairwise_map.mpr (sorted.imp Nat.ne_of_lt)
  exact List.inj_on_of_nodup_map distinct member other same

/-- The numbers are those of the packets that the ACK frame newly acknowledges. -/
def NewlyAcked (book : Book) (ranges : List (Nat × Nat)) (numbers : List Nat) : Prop :=
  ∀ number, number ∈ numbers ↔ Covered ranges number ∧ ∃ sent ∈ book.unresolved, sent.pktNum = number

def acknowledge (book : Book) (ranges : List (Nat × Nat)) : Book :=
  book.settle (fun sent => decide (Covered ranges sent.pktNum)) .acked

def lose (book : Book) (numbers : List Nat) : Book := book.settle (fun sent => decide (sent.pktNum ∈ numbers)) .lost

theorem lose_nil (book : Book) : book.lose [] = book := by
  simp [lose, Ledger.settle]

theorem settle_numbers (resolves : fate ≠ .inFlight) (settles : Ledger.Settles fate book newly after)
    (sorted : book.Sorted) {numbers : List Nat}
    (known : ∀ number, number ∈ numbers ↔ ∃ sent ∈ newly, sent.pktNum = number) :
    after = book.settle (fun sent => decide (sent.pktNum ∈ numbers)) fate := by
  refine settles.eq_settle (fun sent member => decide_eq_true ((known _).mpr ⟨sent, member, rfl⟩)) ?_
  intro entry member flying
  refine decide_eq_false fun listed => resolves ?_
  obtain ⟨sent, is, same⟩ := (known _).mp listed
  have met : (sent, fate) ∈ after :=
    Ledger.mem_withFate.mp ((settles.settled resolves).mem_iff.mpr (List.mem_append_right _ is))
  rw [← flying, ← (sorted.of_items settles.items).eq_of_pktNum met member same]

def total (books : Epoch → Book) : Nat := (books .initial).bytes + (books .handshake).bytes + (books .application).bytes

theorem total_update (books : Epoch → Book) (epoch : Epoch) (book : Book) :
    total (Function.update books epoch book) + (books epoch).bytes = total books + book.bytes := by
  cases epoch <;> simp [total, Function.update] <;> omega

theorem total_of_resolved {books : Epoch → Book} {epoch : Epoch} {delta : Nat}
    (bytes : (books epoch).bytes = delta + book.bytes) :
    total books = total (Function.update books epoch book) + delta := by
  have updated := total_update books epoch book
  omega

theorem total_send (books : Epoch → Book) (epoch : Epoch) (sent : Sent) :
    total (Function.update books epoch ((books epoch).send sent)) =
      total books + if sent.inFlight then sent.size else 0 := by
  have updated := total_update books epoch ((books epoch).send sent)
  rw [Ledger.send, bytes_append, show bytes [(sent, .inFlight)] = _ from Sent.bytes_singleton sent] at updated
  rw [Ledger.send]
  omega

end Book

/-! The bytes in flight of all packet number spaces against the books of what was sent. -/

namespace BytesInFlight

variable {bytes : BytesInFlight} {total delta : Nat}

theorem updateInFlightDuration_spec (bytes : BytesInFlight) (now : Int) :
    (bytes.updateInFlightDuration now).bytesInFlight = bytes.bytesInFlight ∧
      (bytes.updateInFlightDuration now).saturated = bytes.saturated := by
  rw [updateInFlightDuration]
  split
  · exact ⟨rfl, rfl⟩
  · split
    · exact ⟨rfl, rfl⟩
    · exact ⟨rfl, rfl⟩

/-- The counter is the total, and never had to be saturated. -/
structure Exact (bytes : BytesInFlight) (total : Nat) : Prop where
  counted : bytes.bytesInFlight = total
  unsaturated : bytes.saturated = false

theorem Exact.of_eq {other : Nat} (exact_ : bytes.Exact total) (same : total = other) : bytes.Exact other :=
  same ▸ exact_

theorem Exact.add (exact_ : bytes.Exact total) (delta : Nat) (now : Int) :
    (bytes.add delta now).Exact (total + delta) := by
  rw [BytesInFlight.add]
  split
  · rename_i zero
    rw [zero]
    exact exact_
  · obtain ⟨rfl, unsaturated⟩ := exact_
    dsimp only
    split
    · obtain ⟨same, kept⟩ := updateInFlightDuration_spec { bytes with bytesInFlight := bytes.bytesInFlight + delta } now
      exact ⟨same, kept.trans unsaturated⟩
    · exact ⟨rfl, unsaturated⟩

theorem Exact.subtract (exact_ : bytes.Exact (total + delta)) (now : Int) :
    (bytes.saturatingSubtract delta now).Exact total := by
  obtain ⟨counted, unsaturated⟩ := exact_
  obtain ⟨same, kept⟩ := updateInFlightDuration_spec
    { bytes with
      bytesInFlight := bytes.bytesInFlight - delta
      saturated := bytes.saturated || decide (bytes.bytesInFlight < delta) } now
  refine ⟨same.trans ?_, kept.trans ?_⟩
  · show bytes.bytesInFlight - delta = total
    omega
  · rw [unsaturated, Bool.false_or]
    exact decide_eq_false (by omega)

end BytesInFlight

structure View where
  tracks : Epoch → Book → Prop
  space : Epoch → Space
  bytes : BytesInFlight
  ready : Prop

/-- The recovery agrees with the books. -/
structure View.Follows (view : View) (books : Epoch → Book) (pending : Nat) : Prop where
  tracks : ∀ epoch, view.tracks epoch (books epoch)
  bytes : view.bytes.Exact (Book.total books + pending)
  ready : view.ready

/-- The recovery agrees with the books after the step, and has queued the frames of what was resolved. -/
structure View.Advances (old new : View) (books after : Epoch → Book) (pending : Nat) : Prop where
  follows : new.Follows after pending
  moves : ∀ epoch, Moves (old.space epoch) (new.space epoch) (books epoch) (after epoch)

namespace View

variable {old middle new : View} {books between after : Epoch → Book} {pending left : Nat}

theorem Advances.trans (first : Advances old middle books between left)
    (second : Advances middle new between after pending) : Advances old new books after pending :=
  ⟨second.follows, fun epoch => (first.moves epoch).trans (second.moves epoch)⟩

/-- A probe timeout changes nothing but the lost frames of its space, where it repeats data that is unresolved. -/
structure Probes (old new : View) (books : Epoch → Book) (epoch : Epoch) : Prop where
  follows : new.Follows books 0
  others : ∀ other, other ≠ epoch → new.space other = old.space other
  acked : (new.space epoch).ackedFrames = (old.space epoch).ackedFrames
  lost : ∃ added, (new.space epoch).lostFrames = (old.space epoch).lostFrames ++ added ∧
    ∀ frame ∈ added, ∃ sent ∈ (books epoch).unresolved, sent.hasData = true ∧ frame ∈ sent.frames

end View

end Quiche
