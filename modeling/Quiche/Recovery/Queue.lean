import Quiche.Recovery.Book

namespace Quiche

open Data

/-! How the loops over the queue of the packets that are kept follow the book of all packets. -/

variable {Packet Acc : Type} {matches_ : Packet → Sent × Fate → Prop} {tally : Acc → Tally} {fate : Fate}
  {allowed required : Sent → Prop} {acc : Acc} {packets : List Packet} {book : Book}

/-- One turn of the loop leaves a packet, or resolves it and counts it. -/
structure Turn (matches_ : Packet → Sent × Fate → Prop) (tally : Acc → Tally) (fate : Fate)
    (allowed required : Sent → Prop) (body : Acc → Packet → Option (Acc × Packet × Bool)) : Prop where
  turn {acc packet entry} : matches_ packet entry → Book.count [entry] ≤ (tally acc).count →
    ∃ next new goesOn, body acc packet = some (next, new, goesOn) ∧
      (tally next = tally acc ∧ matches_ new entry ∧ (entry.2 = .inFlight → ¬ required entry.1) ∧
          (goesOn = false → ∀ later : Sent, entry.1.pktNum < later.pktNum → ¬ required later) ∨
        ∃ sent, entry = (sent, .inFlight) ∧ goesOn = true ∧ allowed sent ∧ matches_ new (sent, fate) ∧
          Gains (tally acc) (tally next) [sent])

/-- The loop resolves only packets that it may, and all that it must. -/
structure Swept (related : List Packet → Book → Prop) (tally : Acc → Tally) (fate : Fate)
    (allowed required : Sent → Prop) (acc : Acc) (book : Book) (next : Acc) (swept : List Packet)
    (newly : List Sent) (after : Book) : Prop where
  settles : Ledger.Settles fate book newly after
  matched : related swept after
  gains : Gains (tally acc) (tally next) newly
  were : ∀ sent ∈ newly, allowed sent
  are : ∀ entry ∈ after, entry.2 = .inFlight → ¬ required entry.1

variable {body : Acc → Packet → Option (Acc × Packet × Bool)}

theorem sweep_swept (turns : Turn matches_ tally fate allowed required body) (resolves : fate ≠ .inFlight)
    (matched : List.Forall₂ matches_ packets book) (sorted : book.Sorted) (enough : book.count ≤ (tally acc).count) :
    ∃ next swept newly after, sweep body acc packets = some (next, swept) ∧
      Swept (List.Forall₂ matches_) tally fate allowed required acc book next swept newly after := by
  induction matched generalizing acc with
  | nil => exact ⟨acc, [], [], [], rfl, .nil, .nil, .refl _, nofun, nofun⟩
  | @cons packet entry packets book first rest ih =>
    obtain ⟨others, ordered⟩ := List.pairwise_cons.mp sorted
    rw [Book.count_cons] at enough
    have room : Book.count [entry] ≤ (tally acc).count := by omega
    obtain ⟨next, new, goesOn, turned, outcome⟩ := turns.turn first room
    rcases outcome with ⟨same, kept, unwanted, ends⟩ | ⟨sent, rfl, rfl, allows, resolved, gains⟩
    · cases goesOn with
      | false =>
        refine ⟨next, new :: packets, [], entry :: book, sweep_cons_of_end turned, .refl _ _, .cons kept rest,
          ?_, nofun, ?_⟩
        · rw [same]
          exact .refl _
        · intro other member flying
          rcases List.mem_cons.mp member with rfl | later
          · exact unwanted flying
          · exact ends rfl other.1 (others other later)
      | true =>
        have left : Book.count book ≤ (tally next).count := by
          rw [same]
          omega
        obtain ⟨last, swept, newly, after, looped, result⟩ := ih ordered left
        refine ⟨last, new :: swept, newly, entry :: after, ?_, .skip entry result.settles,
          .cons kept result.matched, ?_, result.were, ?_⟩
        · rw [sweep_cons_of_on turned, looped]
          rfl
        · rw [← same]
          exact result.gains
        · intro other member flying
          rcases List.mem_cons.mp member with rfl | later
          · exact unwanted flying
          · exact result.are other later flying
    · have counted := gains.count
      have single : Book.count [(sent, .inFlight)] = Sent.count [sent] := rfl
      have left : Book.count book ≤ (tally next).count := by omega
      obtain ⟨last, swept, newly, after, looped, result⟩ := ih ordered left
      refine ⟨last, new :: swept, sent :: newly, (sent, fate) :: after, ?_, .take sent result.settles,
        .cons resolved result.matched, gains.trans result.gains (.refl _), ?_, ?_⟩
      · rw [sweep_cons_of_on turned, looped]
        rfl
      · exact List.forall_mem_cons.mpr ⟨allows, result.were⟩
      · intro other member flying
        rcases List.mem_cons.mp member with rfl | later
        · exact absurd flying resolves
        · exact result.are other later flying

/-- Acknowledging the packets that come before `stop`. -/
def InRange (range : Nat × Nat) (sent : Sent) : Prop := range.1 ≤ sent.pktNum ∧ sent.pktNum < range.2

/-- The body of the loop acknowledges each packet below the stop once. -/
structure Acks (pktNum : Packet → Nat) (ack : Nat → Acc → Packet → Option (Acc × Packet × Bool))
    (matches_ : Packet → Sent × Fate → Prop) (tally : Acc → Tally) (limit : Nat) : Prop where
  number : ∀ packet entry, matches_ packet entry → pktNum packet = entry.1.pktNum
  past {stop acc packet} : stop ≤ pktNum packet → ack stop acc packet = some (acc, packet, false)
  again {stop acc packet entry} : matches_ packet entry → entry.2 ≠ .inFlight → pktNum packet < stop →
    pktNum packet ≤ limit → ∃ next new, ack stop acc packet = some (next, new, true) ∧ matches_ new entry ∧
      tally next = tally acc
  first {stop acc packet sent} : matches_ packet (sent, .inFlight) → pktNum packet < stop →
    Sent.count [sent] ≤ (tally acc).count → ∃ next new, ack stop acc packet = some (next, new, true) ∧
      matches_ new (sent, .acked) ∧ Gains (tally acc) (tally next) [sent]

variable {pktNum : Packet → Nat} {ack : Nat → Acc → Packet → Option (Acc × Packet × Bool)} {limit : Nat}

theorem Acks.turns (acks : Acks pktNum ack matches_ tally limit) {range : Nat × Nat} (known : range.2 ≤ limit + 1) :
    Turn (fun packet entry => matches_ packet entry ∧ range.1 ≤ entry.1.pktNum) tally .acked (InRange range)
      (InRange range) (ack range.2) where
  turn {acc packet entry} matched room := by
    obtain ⟨matched, from_⟩ := matched
    have number := acks.number packet entry matched
    by_cases past : range.2 ≤ pktNum packet
    · refine ⟨acc, packet, false, acks.past past, .inl ⟨rfl, ⟨matched, from_⟩, ?_, ?_⟩⟩
      · rintro _ ⟨_, below⟩
        omega
      · rintro _ later larger ⟨_, below⟩
        omega
    · obtain ⟨sent, fate⟩ := entry
      have below : sent.pktNum < range.2 := by
        rw [← number]
        exact Nat.not_le.mp past
      by_cases flying : fate = .inFlight
      · subst flying
        obtain ⟨next, new, acked, resolved, gains⟩ := acks.first matched (Nat.not_le.mp past) room
        exact ⟨next, new, true, acked, .inr ⟨sent, rfl, rfl, ⟨from_, below⟩, ⟨resolved, from_⟩, gains⟩⟩
      · obtain ⟨next, new, acked, kept, same⟩ := acks.again matched flying (Nat.not_le.mp past) (by omega)
        exact ⟨next, new, true, acked, .inl ⟨same, ⟨kept, from_⟩, fun is => absurd is flying, nofun⟩⟩

theorem start_spec (number : ∀ packet entry, matches_ packet entry → pktNum packet = entry.1.pktNum)
    (matched : List.Forall₂ matches_ packets book) (sorted : book.Sorted) (start wrap : Nat) :
    ∃ front rest frontBook restBook, packets = front ++ rest ∧ book = frontBook ++ restBook ∧
      List.Forall₂ matches_ front frontBook ∧ List.Forall₂ matches_ rest restBook ∧
      (∀ entry ∈ frontBook, entry.1.pktNum < start) ∧ (∀ entry ∈ restBook, start ≤ entry.1.pktNum) ∧
      (if packets.head?.any fun first => start ≤ pktNum first then 0
        else ringBinarySearchBy (fun packet => compare (pktNum packet) start) wrap packets) = front.length := by
  have numbers : packets.map pktNum = book.map (·.1.pktNum) := by
    induction matched with
    | nil => rfl
    | cons first _ ih => rw [List.map_cons, List.map_cons, number _ _ first, ih (List.pairwise_cons.mp sorted).2]
  have ascending : packets.Pairwise (pktNum · < pktNum ·) := by
    rw [← List.pairwise_map, numbers, List.pairwise_map]
    exact sorted
  obtain ⟨count, upto, sought⟩ := sought_of_sorted ascending start
  have place : (if packets.head?.any fun first => start ≤ pktNum first then 0
      else ringBinarySearchBy (fun packet => compare (pktNum packet) start) wrap packets) = count := by
    split
    · rename_i first
      obtain ⟨packet, found, large⟩ := (Option.any_eq_true _ _).mp first
      by_contra nonzero
      obtain ⟨tail, rfl⟩ := List.head?_eq_some_iff.mp found
      have small := sought.small.before packet (by
        rw [show count = count - 1 + 1 by omega, List.take_succ_cons]
        exact List.mem_cons_self)
      rw [beq_iff_eq, Nat.compare_eq_lt] at small
      exact absurd (of_decide_eq_true large) (Nat.not_le.mpr small)
    · exact sought.ringBinarySearchBy_eq wrap
  refine ⟨packets.take count, packets.drop count, book.take count, book.drop count,
    (List.take_append_drop count packets).symm, (List.take_append_drop count book).symm,
    List.forall₂_take count matched, List.forall₂_drop count matched, ?_, ?_, ?_⟩
  · intro entry member
    have small : entry.1.pktNum ∈ (packets.take count).map pktNum := by
      rw [List.map_take, numbers, ← List.map_take]
      exact List.mem_map_of_mem member
    obtain ⟨packet, kept, same⟩ := List.mem_map.mp small
    have less := sought.small.before packet kept
    rw [beq_iff_eq, Nat.compare_eq_lt] at less
    omega
  · intro entry member
    have large : entry.1.pktNum ∈ (packets.drop count).map pktNum := by
      rw [List.map_drop, numbers, ← List.map_drop]
      exact List.mem_map_of_mem member
    obtain ⟨packet, kept, same⟩ := List.mem_map.mp large
    have greater := sought.small.after packet kept
    have reached : ¬ pktNum packet < start := fun less => by
      rw [Nat.compare_eq_lt.mpr less] at greater
      cases greater
    omega
  · rw [place, List.length_take, Nat.min_eq_left sought.small.count_le]

theorem matched_above (matched : List.Forall₂ matches_ packets book) {start : Nat}
    (above : ∀ entry ∈ book, start ≤ entry.1.pktNum) :
    List.Forall₂ (fun packet entry => matches_ packet entry ∧ start ≤ entry.1.pktNum) packets book := by
  induction matched with
  | nil => exact .nil
  | cons first _ ih =>
    obtain ⟨reached, above⟩ := List.forall_mem_cons.mp above
    exact .cons ⟨first, reached⟩ (ih above)

theorem ackRanges_swept (acks : Acks pktNum ack matches_ tally limit) {skipPn : Option Nat} {wrap : Nat}
    {ranges : List (Nat × Nat)} (known : ∀ range ∈ ranges, range.2 ≤ limit + 1)
    (unskipped : ∀ range ∈ ranges, ∀ skipped ∈ skipPn, ¬ (range.1 ≤ skipped ∧ skipped < range.2))
    (matched : List.Forall₂ matches_ packets book) (sorted : book.Sorted) (enough : book.count ≤ (tally acc).count) :
    ∃ next swept newly after, ackRanges pktNum ack skipPn wrap ranges acc packets = some ((next, swept), .ok ()) ∧
      Swept (List.Forall₂ matches_) tally .acked (fun sent => Covered ranges sent.pktNum)
        (fun sent => Covered ranges sent.pktNum) acc book next swept newly after := by
  induction ranges generalizing acc packets book with
  | nil => exact ⟨acc, packets, [], book, rfl, .refl _ _, matched, .refl _, nofun, by simp⟩
  | cons range ranges ih =>
    obtain ⟨first, others⟩ := List.forall_mem_cons.mp known
    obtain ⟨unfirst, unothers⟩ := List.forall_mem_cons.mp unskipped
    obtain ⟨front, rest, frontBook, restBook, rfl, rfl, frontMatched, restMatched, below, above, place⟩ :=
      start_spec acks.number matched sorted range.1 wrap
    have unskip : ¬ (skipPn.any fun skipped => range.1 ≤ skipped && skipped < range.2) = true := by
      intro skips
      obtain ⟨skipped, is, inside⟩ := (Option.any_eq_true _ _).mp skips
      rw [Bool.and_eq_true, decide_eq_true_eq, decide_eq_true_eq] at inside
      exact unfirst skipped is inside
    have room : Book.count restBook ≤ (tally acc).count := by
      rw [Book.count_append] at enough
      omega
    obtain ⟨next, swept, newly, after, looped, result⟩ := sweep_swept (acks.turns first) nofun
      (matched_above restMatched above) (List.pairwise_append.mp sorted).2.1 room
    have settled : Ledger.Settles .acked (frontBook ++ restBook) newly (frontBook ++ after) :=
      (Ledger.Settles.refl .acked frontBook).append result.settles
    have kept : List.Forall₂ matches_ (front ++ swept) (frontBook ++ after) :=
      List.rel_append frontMatched (result.matched.imp fun _ _ both => both.1)
    have counted := Book.count_settles Fate.acked_ne settled
    have gained := result.gains.count
    have left : Book.count (frontBook ++ after) ≤ (tally next).count := by omega
    obtain ⟨last, packets, later, final, continued, following⟩ := ih others unothers kept
      (sorted.of_items settled.items) left
    obtain ⟨all, perm, whole⟩ := settled.trans Fate.acked_ne following.settles
    refine ⟨last, packets, all, final, ?_, whole, following.matched, result.gains.trans following.gains perm, ?_, ?_⟩
    · rw [ackRanges, if_neg unskip, place]
      show (sweep (ack range.2) acc ((front ++ rest).drop front.length)).bind (fun looped =>
        ackRanges pktNum ack skipPn wrap ranges looped.1 ((front ++ rest).take front.length ++ looped.2)) = _
      rw [List.drop_left, List.take_left, looped]
      exact continued
    · intro sent member
      rcases List.mem_append.mp (perm.mem_iff.mp member) with early | late
      · exact ⟨range, List.mem_cons_self, result.were sent early⟩
      · obtain ⟨other, member, inside⟩ := following.were sent late
        exact ⟨other, List.mem_cons_of_mem _ member, inside⟩
    · rintro entry member flying ⟨other, listed, inside⟩
      rcases List.mem_cons.mp listed with rfl | listed
      · rcases List.mem_append.mp (following.settles.mem_of_inFlight Fate.acked_ne member flying) with early | late
        · exact absurd inside.1 (Nat.not_le.mpr (below entry early))
        · exact result.are entry late flying inside
      · exact following.are entry member flying ⟨other, listed, inside⟩

theorem RangeSet.le_last {ranges : RangeSet} {largest : Nat} (nonempty : ranges.last = some largest)
    (separated : Separated ranges.iter) : ∀ range ∈ ranges.iter, range.2 ≤ largest + 1 := by
  obtain ⟨last, found, less⟩ := Option.bind_eq_some_iff.mp nonempty
  obtain ⟨before, same⟩ := List.getLast?_eq_some_iff.mp found
  obtain ⟨_, rfl⟩ := subChecked_spec less
  have ordered := separated.ordered
  intro range member
  rw [same] at member ordered
  rcases List.mem_append.mp member with early | final
  · have touching := (List.pairwise_append.mp ordered).2.2 range early last List.mem_cons_self
    have proper := separated.proper last (same ▸ List.mem_append_right _ List.mem_cons_self)
    omega
  · cases List.mem_singleton.mp final
    omega

/-- The queue holds the packets of the book but for some resolved ones at its front. -/
structure Kept (matches_ : Packet → Sent × Fate → Prop) (packets : List Packet) (book : Book) : Prop where
  kept : ∃ gone rest, book = gone ++ rest ∧ (∀ entry ∈ gone, entry.2 ≠ .inFlight) ∧ List.Forall₂ matches_ packets rest
  sorted : book.Sorted

namespace Kept

theorem nil : Kept matches_ [] [] := ⟨⟨[], [], rfl, nofun, .nil⟩, .nil⟩

section

variable (kept : Kept matches_ packets book)

include kept

theorem send {packet : Packet} {sent : Sent}
    (fits : matches_ packet (sent, .inFlight)) (increases : ∀ entry ∈ book, entry.1.pktNum < sent.pktNum) :
    Kept matches_ (packets ++ [packet]) (book.send sent) := by
  obtain ⟨⟨gone, rest, rfl, resolved, matched⟩, sorted⟩ := kept
  refine ⟨⟨gone, rest ++ [(sent, .inFlight)], List.append_assoc .., resolved, ?_⟩, ?_⟩
  · exact List.rel_append matched (.cons fits .nil)
  · refine List.pairwise_append.mpr ⟨sorted, List.pairwise_singleton .., ?_⟩
    rintro entry member _ (_ | ⟨_, ⟨⟩⟩)
    exact increases entry member

theorem drain {drained : Packet → Bool}
    (resolved : ∀ packet entry, matches_ packet entry → drained packet = true → entry.2 ≠ .inFlight) :
    Kept matches_ (packets.dropWhile drained) book := by
  obtain ⟨⟨gone, rest, rfl, settled, matched⟩, sorted⟩ := kept
  refine ⟨?_, sorted⟩
  clear sorted
  induction matched generalizing gone with
  | nil => exact ⟨gone, [], rfl, settled, .nil⟩
  | @cons packet entry packets rest first others ih =>
    rw [List.dropWhile_cons]
    split
    · rename_i leaves
      have known : ∀ other ∈ gone ++ [entry], other.2 ≠ .inFlight := by
        intro other member
        rcases List.mem_append.mp member with early | last
        · exact settled other early
        · cases List.mem_singleton.mp last
          exact resolved packet entry first leaves
      obtain ⟨longer, shorter, same, all, left⟩ := ih (gone ++ [entry]) known
      exact ⟨longer, shorter, by rw [← same, List.append_assoc]; rfl, all, left⟩
    · exact ⟨gone, entry :: rest, rfl, settled, .cons first others⟩

theorem matched {packet : Packet} (queued : packet ∈ packets) :
    ∃ entry ∈ book, matches_ packet entry := by
  obtain ⟨⟨gone, rest, rfl, resolved, matched⟩, -⟩ := kept
  clear resolved
  induction matched with
  | nil => cases queued
  | @cons first entry packets rest fits others ih =>
    rcases List.mem_cons.mp queued with rfl | later
    · exact ⟨entry, List.mem_append_right _ List.mem_cons_self, fits⟩
    · obtain ⟨other, member, is⟩ := ih later
      refine ⟨other, ?_, is⟩
      rcases List.mem_append.mp member with early | late
      · exact List.mem_append_left _ early
      · exact List.mem_append_right _ (List.mem_cons_of_mem _ late)

theorem unresolved_eq {unresolved : Packet → Option Sent}
    (reads : ∀ packet entry, matches_ packet entry →
      unresolved packet = if entry.2 = .inFlight then some entry.1 else none) :
    packets.filterMap unresolved = book.unresolved := by
  obtain ⟨⟨gone, rest, rfl, resolved, matched⟩, -⟩ := kept
  rw [Book.unresolved, Ledger.withFate_append, show Ledger.withFate gone .inFlight = [] from
    Book.unresolved_of_resolved resolved, List.nil_append]
  induction matched with
  | nil => rfl
  | @cons packet entry packets rest first others ih =>
    rw [List.filterMap_cons, reads packet entry first, Ledger.withFate_cons]
    by_cases flying : entry.2 = .inFlight
    · rw [if_pos flying, if_pos flying, ih]
    · rw [if_neg flying, if_neg flying, ih]

end

end Kept

theorem Swept.prepend {next : Acc} {swept : List Packet} {newly : List Sent} {gone rest after : Book}
    (result : Swept (List.Forall₂ matches_) tally fate allowed required acc rest next swept newly after)
    (resolved : ∀ entry ∈ gone, entry.2 ≠ .inFlight) (sorted : Book.Sorted (gone ++ rest)) :
    Swept (Kept matches_) tally fate allowed required acc (gone ++ rest) next swept newly (gone ++ after) := by
  have settles : Ledger.Settles fate (gone ++ rest) newly (gone ++ after) :=
    (Ledger.Settles.refl fate gone).append result.settles
  refine ⟨settles, ⟨⟨gone, after, rfl, resolved, result.matched⟩, sorted.of_items settles.items⟩, result.gains,
    result.were, ?_⟩
  intro entry member flying
  rcases List.mem_append.mp member with early | late
  · exact absurd flying (resolved entry early)
  · exact result.are entry late flying

theorem Kept.count_le {gone rest : Book} (enough : Book.count (gone ++ rest) ≤ (tally acc).count) :
    rest.count ≤ (tally acc).count := by
  rw [Book.count_append] at enough
  omega

theorem Kept.sweep (kept : Kept matches_ packets book) (turns : Turn matches_ tally fate allowed required body)
    (resolves : fate ≠ .inFlight) (enough : book.count ≤ (tally acc).count) :
    ∃ next swept newly after, sweep body acc packets = some (next, swept) ∧
      Swept (Kept matches_) tally fate allowed required acc book next swept newly after := by
  obtain ⟨⟨gone, rest, rfl, resolved, matched⟩, sorted⟩ := kept
  obtain ⟨next, swept, newly, after, looped, result⟩ := sweep_swept turns resolves matched
    (List.pairwise_append.mp sorted).2.1 (count_le enough)
  exact ⟨next, swept, newly, _, looped, result.prepend resolved sorted⟩

theorem Kept.ackRanges (kept : Kept matches_ packets book) (acks : Acks pktNum ack matches_ tally limit)
    {skipPn : Option Nat} {ranges : List (Nat × Nat)} (known : ∀ range ∈ ranges, range.2 ≤ limit + 1)
    (unskipped : ∀ skipped ∈ skipPn, ¬ Covered ranges skipped) (enough : book.count ≤ (tally acc).count) (wrap : Nat) :
    ∃ next swept newly after,
      Quiche.ackRanges pktNum ack skipPn wrap ranges acc packets = some ((next, swept), .ok ()) ∧
      Swept (Kept matches_) tally .acked (fun sent => Covered ranges sent.pktNum)
        (fun sent => Covered ranges sent.pktNum) acc book next swept newly after := by
  obtain ⟨⟨gone, rest, rfl, resolved, matched⟩, sorted⟩ := kept
  obtain ⟨next, swept, newly, after, looped, result⟩ := ackRanges_swept acks known
    (fun range member skipped is inside => unskipped skipped is ⟨range, member, inside⟩) matched
    (List.pairwise_append.mp sorted).2.1 (count_le enough)
  exact ⟨next, swept, newly, _, looped, result.prepend resolved sorted⟩

namespace Swept

variable {related : List Packet → Book → Prop} {next : Acc} {swept : List Packet} {newly : List Sent} {after : Book}

section

variable (result : Swept related tally fate allowed required acc book next swept newly after)

include result

theorem count_eq
    (resolves : fate ≠ .inFlight) (counted : (tally acc).count = book.count) : (tally next).count = after.count := by
  have gained := result.gains.count
  have settled := Book.count_settles resolves result.settles
  omega

theorem bytes_eq
    (resolves : fate ≠ .inFlight) (empty : (tally acc).bytes = 0) : book.bytes = (tally next).bytes + after.bytes := by
  rw [Book.bytes_settles resolves result.settles, result.gains.bytes, empty, Nat.zero_add]

theorem mem_numbers
    (empty : (tally acc).numbers = []) (number : Nat) :
    number ∈ (tally next).numbers ↔ ∃ sent ∈ newly, sent.pktNum = number := by
  rw [result.gains.numbers, empty]
  simp

theorem bytes_eq_zero
    (empty : (tally acc).numbers = []) (zero : (tally acc).bytes = 0) (noNumbers : (tally next).numbers = []) :
    (tally next).bytes = 0 := by
  have nothing : newly = [] := by
    rw [List.eq_nil_iff_forall_not_mem]
    intro sent member
    have listed := (result.mem_numbers empty sent.pktNum).mpr ⟨sent, member, rfl⟩
    rw [noNumbers] at listed
    cases listed
  rw [result.gains.bytes, zero, nothing]
  rfl

theorem moves {old : Space}
    (resolves : fate ≠ .inFlight) (before : (tally acc).frames = old.frames fate) :
    Moves old (old.put (tally next).frames fate) book after := by
  obtain ⟨added, appended, order⟩ := result.gains.frames
  refine .of_settles resolves result.settles ⟨added, ?_, order⟩ fun other => old.frames_put_of_ne _
  rw [old.frames_put _ resolves, ← before, appended]

end

variable {ranges : List (Nat × Nat)}

section

variable
  (result : Swept related tally .acked (fun sent => Covered ranges sent.pktNum)
    (fun sent => Covered ranges sent.pktNum) acc book next swept newly after)

include result

theorem eq_acknowledge : after = book.acknowledge ranges := by
  refine result.settles.eq_settle (fun sent member => ?_) fun entry member flying => ?_
  · exact decide_eq_true (result.were sent member)
  · exact decide_eq_false (result.are entry member flying)

theorem newlyAcked (empty : (tally acc).numbers = []) : book.NewlyAcked ranges (tally next).numbers := by
  intro number
  have split := result.settles.inFlight Fate.acked_ne
  rw [result.mem_numbers empty]
  constructor
  · rintro ⟨sent, member, rfl⟩
    exact ⟨result.were sent member, sent, split.mem_iff.mpr (List.mem_append_left _ member), rfl⟩
  · rintro ⟨covered, sent, member, rfl⟩
    rcases List.mem_append.mp (split.mem_iff.mp member) with is | remains
    · exact ⟨sent, is, rfl⟩
    · exact absurd covered (result.are _ (Ledger.mem_withFate.mp remains) rfl)

end

theorem eq_lose (result : Swept related tally .lost allowed required acc book next swept newly after)
    (sorted : book.Sorted) (empty : (tally acc).numbers = []) : after = book.lose (tally next).numbers :=
  Book.settle_numbers Fate.lost_ne result.settles sorted (result.mem_numbers empty)

end Swept

/-- What loss recovery keeps of a packet number space. -/
structure PacketSpace (Packet : Type) where
  packets : List Packet
  count : Nat
  lastEliciting : Option Int
  space : Space

namespace PacketSpace

/-- The packet number space agrees with its book. -/
structure Tracks (matches_ : Packet → Sent × Fate → Prop) (space : PacketSpace Packet) (book : Book) : Prop where
  kept : Kept matches_ space.packets book
  count : space.count = book.count
  last : book.Elicits → space.lastEliciting.isSome = true

/-- Packets of so many bytes in flight are resolved. -/
structure Resolves (matches_ : Packet → Sent × Fate → Prop) (space next : PacketSpace Packet) (book after : Book)
    (bytes : Nat) : Prop where
  tracks : next.Tracks matches_ after
  moves : Moves space.space next.space book after
  bytes : book.bytes = bytes + after.bytes

/-- The tally before the loop. -/
structure Starts (space : PacketSpace Packet) (fate : Fate) (tally : Tally) : Prop where
  count : tally.count = space.count
  bytes : tally.bytes = 0
  frames : tally.frames = space.space.frames fate
  numbers : tally.numbers = []

/-- The space after the loop. -/
def after (space : PacketSpace Packet) (swept : List Packet) (fate : Fate) (tally : Tally) : PacketSpace Packet :=
  { space with packets := swept, count := tally.count, space := space.space.put tally.frames fate }

variable {space : PacketSpace Packet}

theorem Tracks.send (tracks : space.Tracks matches_ book) {next : PacketSpace Packet} {packet : Packet} {sent : Sent}
    (fits : matches_ packet (sent, .inFlight)) (increases : ∀ entry ∈ book, entry.1.pktNum < sent.pktNum)
    (queued : next.packets = space.packets ++ [packet])
    (counted : next.count = space.count + if sent.inFlight then 1 else 0)
    (known : space.lastEliciting.isSome = true → next.lastEliciting.isSome = true)
    (elicited : sent.inFlight = true → sent.ackEliciting = true → next.lastEliciting.isSome = true) :
    next.Tracks matches_ (book.send sent) := by
  refine ⟨?_, ?_, fun elicits => ?_⟩
  · rw [queued]
    exact tracks.kept.send fits increases
  · rw [counted, tracks.count, Ledger.send, Book.count_append, Book.count_singleton]
  · rcases elicits.of_send with before | ⟨flying, eliciting⟩
    · exact known (tracks.last before)
    · exact elicited flying eliciting

theorem Tracks.swept (tracks : space.Tracks matches_ book) (starts : space.Starts fate (tally acc))
    (resolves : fate ≠ .inFlight) {next : Acc} {swept : List Packet} {newly : List Sent} {final : Book}
    (result : Swept (Kept matches_) tally fate allowed required acc book next swept newly final) :
    space.Resolves matches_ (space.after swept fate (tally next)) book final (tally next).bytes :=
  ⟨⟨result.matched, result.count_eq resolves (starts.count.trans tracks.count),
    fun elicits => tracks.last (elicits.of_settles resolves result.settles)⟩,
    result.moves resolves starts.frames, result.bytes_eq resolves starts.bytes⟩

/-- The ACK frame passes the checks, and does not cover the number that was skipped. -/
abbrev Acceptable (ranges : RangeSet) (skipPn : Option Nat) : Prop :=
  (ranges.last.isSome = true ∧ Separated ranges.iter) ∧ ∀ skipped ∈ skipPn, ¬ Covered ranges.iter skipped

theorem Tracks.ackRanges (tracks : space.Tracks matches_ book) {known largest : Nat}
    (acks : Acks pktNum ack matches_ tally (max known largest)) {ranges : RangeSet} {skipPn : Option Nat}
    (acceptable : Acceptable ranges skipPn) (nonempty : ranges.last = some largest) (acc : Acc)
    (starts : space.Starts .acked (tally acc)) (wrap : Nat) : ∃ next swept,
      Quiche.ackRanges pktNum ack skipPn wrap ranges.iter acc space.packets = some ((next, swept), .ok ()) ∧
      space.Resolves matches_ (space.after swept .acked (tally next)) book (book.acknowledge ranges.iter)
        (tally next).bytes ∧
      ((tally next).numbers = [] → (tally next).bytes = 0) ∧ book.NewlyAcked ranges.iter (tally next).numbers := by
  obtain ⟨⟨_, separated⟩, unskipped⟩ := acceptable
  obtain ⟨next, swept, newly, final, looped, result⟩ := tracks.kept.ackRanges acks
    (fun range member => (ranges.le_last nonempty separated range member).trans (Nat.succ_le_succ (Nat.le_max_right ..)))
    unskipped (Nat.le_of_eq (starts.count.trans tracks.count).symm) wrap
  rw [← result.eq_acknowledge]
  exact ⟨next, swept, looped, tracks.swept starts Fate.acked_ne result, result.bytes_eq_zero starts.numbers starts.bytes,
    result.newlyAcked starts.numbers⟩

theorem Tracks.lose (tracks : space.Tracks matches_ book) (turns : Turn matches_ tally .lost allowed required body)
    (acc : Acc) (starts : space.Starts .lost (tally acc)) :
    ∃ next swept, sweep body acc space.packets = some (next, swept) ∧ space.Resolves matches_
      (space.after swept .lost (tally next)) book (book.lose (tally next).numbers) (tally next).bytes := by
  obtain ⟨next, swept, newly, final, looped, result⟩ := tracks.kept.sweep turns Fate.lost_ne
    (Nat.le_of_eq (starts.count.trans tracks.count).symm)
  refine ⟨next, swept, looped, ?_⟩
  rw [← result.eq_lose tracks.kept.sorted starts.numbers]
  exact tracks.swept starts Fate.lost_ne result

end PacketSpace

namespace View

variable {State : Type} {read : State → PacketSpace Packet} {epochs next : Epoch → State} {bytes after : BytesInFlight}
  {ready armed : Prop} {books : Epoch → Book} {left pending : Nat} {epoch : Epoch} {state : State}

/-- The spaces of a recovery, whatever it keeps of its packets. -/
def of (matches_ : Packet → Sent × Fate → Prop) (read : State → PacketSpace Packet) (epochs : Epoch → State)
    (bytes : BytesInFlight) (ready : Prop) : View where
  tracks epoch := (read (epochs epoch)).Tracks matches_
  space epoch := (read (epochs epoch)).space
  bytes := bytes
  ready := ready

/-- `lost` is declared lost after the packets of the ACK frame are acknowledged. -/
structure Acknowledges (old new : View) (books : Epoch → Book) (epoch : Epoch) (ranges : RangeSet)
    (lost newlyAcked : List Nat) : Prop where
  advances : old.Advances new books (Function.update books epoch (((books epoch).acknowledge ranges.iter).lose lost)) 0
  numbers : (books epoch).NewlyAcked ranges.iter newlyAcked

section

variable (follows : (of matches_ read epochs bytes ready).Follows books left)

include follows

section

variable (updated : next = Function.update epochs epoch state)

include updated

theorem Follows.set
    (tracks : (read state).Tracks matches_ book)
    (exact_ : after.Exact (Book.total (Function.update books epoch book) + pending)) (holds : armed) :
    (of matches_ read next after armed).Follows (Function.update books epoch book) pending := by
  subst updated
  refine ⟨fun other => ?_, exact_, holds⟩
  show (read (Function.update epochs epoch state other)).Tracks matches_ _
  by_cases same : other = epoch
  · subst same
    rw [Function.update_self, Function.update_self]
    exact tracks
  · rw [Function.update_of_ne same, Function.update_of_ne same]
    exact follows.tracks other

theorem Follows.keep
    (tracks : (read state).Tracks matches_ (books epoch))
    (exact_ : after.Exact (Book.total books + pending)) (holds : armed) :
    (of matches_ read next after armed).Follows books pending := by
  have same := Function.update_eq_self epoch books
  rw [← same] at exact_
  have kept := follows.set updated tracks exact_ holds
  rwa [same] at kept

theorem Follows.advance
    (tracks : (read state).Tracks matches_ book)
    (moves : Moves (read (epochs epoch)).space (read state).space (books epoch) book)
    (exact_ : after.Exact (Book.total (Function.update books epoch book) + pending)) (holds : armed) :
    (of matches_ read epochs bytes ready).Advances (of matches_ read next after armed) books
      (Function.update books epoch book) pending := by
  refine ⟨follows.set updated tracks exact_ holds, fun other => ?_⟩
  subst updated
  show Moves _ (read (Function.update epochs epoch state other)).space _ _
  by_cases same : other = epoch
  · subst same
    rw [Function.update_self, Function.update_self]
    exact moves
  · rw [Function.update_of_ne same, Function.update_of_ne same]
    exact .refl _ _

end

end

theorem Follows.probe (follows : (of matches_ read epochs bytes ready).Follows books 0)
    (updated : next = Function.update epochs epoch state) (tracks : (read state).Tracks matches_ (books epoch))
    {added : List Frame} (queued : (read state).space =
      (read (epochs epoch)).space.put ((read (epochs epoch)).space.lostFrames ++ added) .lost)
    (lost : ∀ frame ∈ added, ∃ sent ∈ (books epoch).unresolved, sent.hasData = true ∧ frame ∈ sent.frames) :
    (of matches_ read epochs bytes ready).Probes (of matches_ read next bytes ready) books epoch := by
  refine ⟨follows.keep updated tracks follows.bytes follows.ready, fun other different => ?_, ?_, added, ?_, lost⟩
  · simp only [of, updated, Function.update_of_ne different]
  · simp only [of, updated, Function.update_self, queued]
    rfl
  · simp only [of, updated, Function.update_self, queued]
    rfl

end View

end Quiche
