import Quiche.Frame.RoundTrip

namespace Quiche

open Data

namespace Frame

open Octets

variable {ranges next : RangeSet} {smallestAck largestAck top count : Nat}

section Checked

/-- An unsigned addition; it panics on overflow. -/
def add (left right : Nat) : Action Nat :=
  match addU64 left right with
  | some total => pure total
  | none => throw .panic

/-- `insertAcked` with a checked end of the range. -/
def insertAckedChecked (ranges : RangeSet) (smallestAck largestAck : Nat) : Action RangeSet := do
  let stop ← add largestAck 1
  match ranges.insert smallestAck stop with
  | some ranges => pure ranges
  | none => throw .panic

/-- `getAckBlocks` with every sum and difference checked. -/
def getAckBlocksChecked : Nat → Nat → RangeSet → Action RangeSet
  | 0, _, ranges => pure ranges
  | blockCount + 1, smallestAck, ranges => do
    let gap ← getVarint
    let needed ← add 2 gap
    if smallestAck < needed then invalidFrame
    else
      let largestAck ← subtract (← subtract smallestAck gap) 2
      let ackBlock ← getVarint
      if largestAck < ackBlock then invalidFrame
      else
        let smallestAck ← subtract largestAck ackBlock
        let ranges ← insertAckedChecked ranges smallestAck largestAck
        getAckBlocksChecked blockCount smallestAck ranges

/-- `parseAckFrame` with every sum and difference checked. -/
def parseAckFrameChecked (ty : Nat) : Action Frame := do
  let largestAck ← getVarint
  let ackDelay ← getVarint
  let blockCount ← getVarint
  let ackBlock ← getVarint
  if largestAck < ackBlock then invalidFrame
  else
    let smallestAck ← subtract largestAck ackBlock
    let ranges ← insertAckedChecked .default smallestAck largestAck
    let ranges ← getAckBlocksChecked blockCount smallestAck ranges
    let ecnCounts ← getEcnCounts ty
    pure (.ack ackDelay ranges ecnCounts)

theorem add_of_lt {left right : Nat} (bound : left + right < 2 ^ 64) : add left right = pure (left + right) := by
  rw [add, addU64_of_lt bound]

theorem insertAcked_checked (bound : largestAck < 2 ^ 62) :
    insertAckedChecked ranges smallestAck largestAck = insertAcked ranges smallestAck largestAck := by
  have sum : largestAck + 1 < 2 ^ 64 := by omega
  rw [insertAckedChecked, add_of_lt sum, pure_bind]
  rfl

theorem getAckBlocks_checked (blockCount : Nat) (bound : smallestAck < 2 ^ 62) :
    getAckBlocksChecked blockCount smallestAck ranges = getAckBlocks blockCount smallestAck ranges := by
  induction blockCount generalizing smallestAck ranges with
  | zero => rfl
  | succ blockCount ih =>
    apply below_getVarint.bind_congr
    intro gap gapBound
    have sum : 2 + gap < 2 ^ 64 := by omega
    rw [add_of_lt sum, pure_bind]
    split
    · rfl
    rename_i enough
    have gapFits : gap ≤ smallestAck := by omega
    have twoFit : 2 ≤ smallestAck - gap := by omega
    rw [subtract_of_le gapFits, pure_bind, subtract_of_le twoFit, pure_bind]
    apply below_getVarint.bind_congr
    intro ackBlock _
    split
    · rfl
    rename_i blockEnough
    have blockFits : ackBlock ≤ smallestAck - gap - 2 := Nat.not_lt.mp blockEnough
    have largestBound : smallestAck - gap - 2 < 2 ^ 62 := by omega
    rw [subtract_of_le blockFits, pure_bind, insertAcked_checked largestBound]
    congr 1
    funext grown
    exact ih (by omega)

theorem parseAckFrame_checked (ty : Nat) : parseAckFrameChecked ty = parseAckFrame ty := by
  apply below_getVarint.bind_congr
  intro largestAck largestBound
  apply below_getVarint.bind_congr
  intro ackDelay _
  apply below_getVarint.bind_congr
  intro blockCount _
  apply below_getVarint.bind_congr
  intro ackBlock _
  split
  · rfl
  rename_i enough
  have blockFits : ackBlock ≤ largestAck := Nat.not_lt.mp enough
  rw [subtract_of_le blockFits, pure_bind, insertAcked_checked largestBound]
  congr 1
  funext ranges
  rw [getAckBlocks_checked blockCount (by omega)]

end Checked

theorem error_of_ne_panic {Value : Type} {fault : Fault} {last : Octets} (other : fault ≠ .panic) :
    ∃ reason after, (.error fault last : EStateM.Result Fault Octets Value) = .error (.error reason) after := by
  cases fault with
  | error reason => exact ⟨reason, last, rfl⟩
  | panic => exact absurd rfl other

section Gathered

def rebuild (ranges : List (Nat × Nat)) : Option RangeSet :=
  ranges.foldr (fun range set => set.bind fun set => set.insert range.1 range.2) (some .default)

/-- What the blocks read so far make: `count` ranges from `smallestAck` up to `top`, every
one inserted in front of the others. -/
structure Gathered (top count smallestAck : Nat) (ranges : RangeSet) : Prop where
  bounded : ranges.Bounded (2 ^ 62)
  proper : ∀ range ∈ ranges.iter, range.1 < range.2
  above : ∀ range ∈ ranges.iter, smallestAck ≤ range.1
  last : ranges.iter.getLast?.map Prod.snd = some top
  length : ranges.iter.length = count
  rebuilt : rebuild ranges.iter = some ranges

theorem insertAcked_front (bounded : ranges.Bounded (2 ^ 62)) (rebuilt : rebuild ranges.iter = some ranges)
    (proper : smallestAck ≤ largestAck) (within : largestAck < 2 ^ 62)
    (above : ∀ range ∈ ranges.iter, largestAck + 1 < range.1) :
    ∃ next, insertAcked ranges smallestAck largestAck = pure next ∧ next.Bounded (2 ^ 62) ∧
      next.iter = (smallestAck, largestAck + 1) :: ranges.iter ∧ rebuild next.iter = some next := by
  have ordered : smallestAck ≤ largestAck + 1 := by omega
  obtain ⟨next, inserted, nextBounded, iter⟩ := bounded.insert (Nat.le_refl _) ordered within
  rw [insertRange_before ordered above bounded.separated.proper] at iter
  refine ⟨next, ?_, nextBounded, iter, ?_⟩
  · rw [insertAcked, inserted]
  · rw [rebuild] at rebuilt
    rw [iter, rebuild, List.foldr_cons, rebuilt, Option.bind_some, inserted]

theorem gathered_first (proper : smallestAck ≤ largestAck) (within : largestAck < 2 ^ 62) :
    ∃ next, insertAcked .default smallestAck largestAck = pure next ∧ Gathered (largestAck + 1) 1 smallestAck next := by
  obtain ⟨next, inserted, bounded, iter, rebuilt⟩ :=
    insertAcked_front (RangeSet.default_bounded _) rfl proper within (by simp [RangeSet.default, RangeSet.iter])
  have single : next.iter = [(smallestAck, largestAck + 1)] := iter
  refine ⟨next, inserted, bounded, ?_, ?_, ?_, ?_, rebuilt⟩ <;> simp [single]
  omega

theorem Gathered.insert (gathered : Gathered top count smallestAck ranges) {smallest : Nat}
    (proper : smallest ≤ largestAck) (gap : largestAck + 1 < smallestAck) (within : smallestAck ≤ 2 ^ 62) :
    ∃ next, insertAcked ranges smallest largestAck = pure next ∧ Gathered top (count + 1) smallest next := by
  have above : ∀ range ∈ ranges.iter, largestAck + 1 < range.1 :=
    fun range member => Nat.lt_of_lt_of_le gap (gathered.above range member)
  obtain ⟨next, inserted, bounded, iter, rebuilt⟩ :=
    insertAcked_front gathered.bounded gathered.rebuilt proper (by omega) above
  refine ⟨next, inserted, bounded, ?_, ?_, ?_, ?_, rebuilt⟩
  · rw [iter]
    exact List.forall_mem_cons.mpr ⟨Nat.lt_succ_of_le proper, gathered.proper⟩
  · rw [iter]
    refine List.forall_mem_cons.mpr ⟨Nat.le_refl _, fun range member => ?_⟩
    have := above range member
    omega
  · have last := gathered.last
    cases rest : ranges.iter with
    | nil => simp [rest] at last
    | cons head tail =>
      rw [rest] at last
      rw [iter, rest, List.getLast?_cons_cons]
      exact last
  · rw [iter, List.length_cons, gathered.length]

theorem getAckBlocks_gathers (blockCount : Nat) (gathered : Gathered top count smallestAck ranges)
    (within : smallestAck ≤ 2 ^ 62) : Ensures Fault.panic (getAckBlocks blockCount smallestAck ranges) fun next =>
      ∃ smallest, Gathered top (count + blockCount) smallest next := by
  induction blockCount generalizing smallestAck ranges count with
  | zero => exact ensures_pure ⟨smallestAck, gathered⟩
  | succ blockCount ih =>
    apply below_getVarint.bind
    intro gap _
    apply Ensures.ite
    · exact fun _ => ensures_throw (by simp) _
    intro enough
    apply below_getVarint.bind
    intro ackBlock _
    apply Ensures.ite
    · exact fun _ => ensures_throw (by simp) _
    intro blockEnough
    have proper : smallestAck - gap - 2 - ackBlock ≤ smallestAck - gap - 2 := Nat.sub_le _ _
    obtain ⟨next, inserted, grown⟩ := gathered.insert proper (by omega) within
    dsimp only
    rw [inserted, pure_bind]
    apply (ih grown (by omega)).mono
    intro last both
    rwa [Nat.add_assoc, Nat.add_comm 1] at both

end Gathered

section Parse

theorem getEcnCounts_encodable (ty : Nat) :
    Ensures Fault.panic (getEcnCounts ty) fun ecnCounts => ∀ ecn ∈ ecnCounts, EcnEncodable ecn := by
  apply Ensures.ite
  · intro _
    apply below_getVarint.bind
    intro ect0Count ect0
    apply below_getVarint.bind
    intro ect1Count ect1
    apply below_getVarint.bind
    intro ecnCeCount ce
    apply ensures_pure
    intro ecn equal
    cases equal
    exact ⟨ect0, ect1, ce⟩
  · intro _
    apply ensures_pure
    intro ecn equal
    cases equal

/-- A parsed `ACK` frame that `to_bytes` can carry. -/
def Parsed (largestAck blockCount : Nat) : Frame → Prop
  | .ack ackDelay ranges ecnCounts =>
    ackDelay < 2 ^ 62 ∧ (∃ smallest, Gathered (largestAck + 1) (1 + blockCount) smallest ranges) ∧
      ∀ ecn ∈ ecnCounts, EcnEncodable ecn
  | _ => False

/-- The fields of an `ACK` frame that bound its ranges: Largest Acknowledged and the
number of blocks below the first. -/
def ackHeader : Action (Nat × Nat) := do
  let largestAck ← getVarint
  let _ ← getVarint
  let blockCount ← getVarint
  pure (largestAck, blockCount)

/-- `parse_ack_frame` behind its first three fields. -/
def parseAckRanges (ty largestAck ackDelay blockCount : Nat) : Action Frame := do
  let ackBlock ← getVarint
  if largestAck < ackBlock then invalidFrame
  else
    let smallestAck := largestAck - ackBlock
    let ranges ← insertAcked .default smallestAck largestAck
    let ranges ← getAckBlocks blockCount smallestAck ranges
    let ecnCounts ← getEcnCounts ty
    pure (.ack ackDelay ranges ecnCounts)

theorem parseAckRanges_parses (ty blockCount : Nat) {ackDelay : Nat} (largest : largestAck < 2 ^ 62)
    (delay : ackDelay < 2 ^ 62) :
    Ensures Fault.panic (parseAckRanges ty largestAck ackDelay blockCount) (Parsed largestAck blockCount) := by
  apply below_getVarint.bind
  intro ackBlock _
  apply Ensures.ite
  · exact fun _ => ensures_throw (by simp) _
  intro enough
  obtain ⟨first, inserted, gathered⟩ := gathered_first (Nat.sub_le largestAck ackBlock) largest
  dsimp only
  rw [inserted, pure_bind]
  apply (getAckBlocks_gathers blockCount gathered (by omega)).bind
  intro ranges gathers
  apply (getEcnCounts_encodable ty).bind
  intro ecnCounts counts
  exact ensures_pure ⟨delay, gathers, counts⟩

theorem parseAckFrame_cases (ty : Nat) (payload : Octets) :
    (∃ reason last, parseAckFrame ty payload = .error (.error reason) last) ∨
      ∃ frame last largestAck blockCount rest, parseAckFrame ty payload = .ok frame last ∧
        ackHeader payload = .ok (largestAck, blockCount) rest ∧ frame.Parsed largestAck blockCount := by
  have whole : parseAckFrame ty = getVarint >>= fun largestAck => getVarint >>= fun ackDelay =>
      getVarint >>= fun blockCount => parseAckRanges ty largestAck ackDelay blockCount := rfl
  rw [whole, ackHeader]
  rcases below_getVarint.outcome payload with ⟨failure, last, failed, panics⟩ | ⟨largestAck, second, read, largest⟩
  · rw [bind_error failed]
    exact .inl (error_of_ne_panic panics)
  rw [bind_ok read, bind_ok read]
  rcases below_getVarint.outcome second with ⟨failure, last, failed, panics⟩ | ⟨ackDelay, third, read, delay⟩
  · rw [bind_error failed]
    exact .inl (error_of_ne_panic panics)
  rw [bind_ok read, bind_ok read]
  rcases below_getVarint.outcome third with ⟨failure, last, failed, panics⟩ | ⟨blockCount, fourth, read, _⟩
  · rw [bind_error failed]
    exact .inl (error_of_ne_panic panics)
  rw [bind_ok read, bind_ok read]
  have parses := parseAckRanges_parses ty blockCount largest delay
  rcases parses.outcome fourth with ⟨failure, last, failed, panics⟩ | ⟨frame, last, parsed, matches_⟩
  · rw [failed]
    exact .inl (error_of_ne_panic panics)
  · exact .inr ⟨frame, last, largestAck, blockCount, fourth, parsed, rfl, matches_⟩

theorem Gathered.acknowledges (gathered : Gathered top count smallestAck ranges) : Acknowledges ranges.iter where
  nonempty := by
    intro empty
    have last := gathered.last
    simp [empty] at last
  separated := gathered.bounded.separated
  proper := gathered.proper
  within := gathered.bounded.within

end Parse

section Reparse

variable {pkt : PacketType} {octets after : Octets} {frame : Frame}

/-- `to_bytes` writes the same bytes wherever they fit, and `from_bytes` takes exactly
these for the very same frame. -/
def Reencodes (pkt : PacketType) (frame : Frame) : Prop :=
  ∃ bytes, (∀ out : Octets, bytes.length ≤ out.cap → frame.toBytes out = .ok bytes.length (out.append bytes)) ∧
    ∀ octets : Octets, ∀ suffix, octets.rest = bytes ++ suffix →
      fromBytes pkt octets = .ok frame (octets.advance bytes.length)

/-- What a parsed `ACK` frame holds: ranges that the format can carry, one for every
block, up to Largest Acknowledged. -/
structure Normalised (payload : Octets) (ranges : RangeSet) : Prop where
  acknowledges : Acknowledges ranges.iter
  fields : ∃ largestAck blockCount rest, ackHeader payload = .ok (largestAck, blockCount) rest ∧
    ranges.iter.getLast?.map Prod.snd = some (largestAck + 1) ∧ ranges.len = blockCount + 1

theorem fromBytes_allowed (permitted : allowed pkt frame = true) (read : fromBytes .short octets = .ok frame after) :
    fromBytes pkt octets = .ok frame after := by
  obtain ⟨ty, payload, typed, parses⟩ := bind_eq_ok read
  obtain ⟨parsed, last, decoded, admitted⟩ := bind_eq_ok parses
  rw [allowed_short, if_pos rfl] at admitted
  cases admitted
  rw [fromBytes, bind_ok typed, bind_ok decoded, if_pos permitted]
  rfl

variable {blockCount ackDelay : Nat} {ecnCounts : Option EcnCounts}

theorem reads_parsed (parsed : (ack ackDelay ranges ecnCounts).Parsed largestAck blockCount) :
    Reads cursor (parseAckFrame (ackType ecnCounts)) (ackPayload ackDelay ranges.iter ecnCounts)
      (.ack ackDelay ranges ecnCounts) := by
  obtain ⟨delay, ⟨smallest, gathered⟩, counts⟩ := parsed
  obtain ⟨next, read, iter⟩ := reads_parseAckFrame delay gathered.acknowledges counts
  have whole : (withSlice (ackPayload ackDelay ranges.iter ecnCounts)).rest =
      ackPayload ackDelay ranges.iter ecnCounts ++ [] := (List.append_nil _).symm
  have returned := read (withSlice (ackPayload ackDelay ranges.iter ecnCounts)) [] whole
  rcases parseAckFrame_cases (ackType ecnCounts) (withSlice (ackPayload ackDelay ranges.iter ecnCounts)) with
    ⟨reason, last, failed⟩ | ⟨frame, last, largest, count, rest, again, _, parsed⟩
  · rw [returned] at failed
    cases failed
  · rw [returned] at again
    cases again
    obtain ⟨_, ⟨_, regathered⟩, _⟩ := parsed
    have rebuilt := regathered.rebuilt
    rw [iter, gathered.rebuilt] at rebuilt
    cases rebuilt
    exact read

theorem Parsed.reencodes (parsed : (ack ackDelay ranges ecnCounts).Parsed largestAck blockCount)
    (permitted : allowed pkt (ack ackDelay ranges ecnCounts) = true) :
    Reencodes pkt (ack ackDelay ranges ecnCounts) := by
  have read := reads_parsed parsed
  obtain ⟨delay, ⟨smallest, gathered⟩, counts⟩ := parsed
  have encodable : (ack ackDelay ranges ecnCounts).Encodable := ⟨delay, gathered.acknowledges, counts⟩
  refine ⟨_, writes_toBytes encodable, ?_⟩
  intro octets suffix front
  apply fromBytes_allowed permitted
  apply fromBytes_of_parse front
  have again := read (afterType (ack ackDelay ranges ecnCounts) octets) suffix (afterType_rest front)
  cases ecnCounts <;> exact again

/-- An `ACK` frame is refused with an error or parsed into normal ranges that survive
another round, and its arithmetic stays in range for every value of the fields. -/
theorem ack_parsing_normalised (pkt : PacketType) {payload : Octets} {ty : Nat}
    (typed : getVarint octets = .ok ty payload) (isAck : ty = 0x02 ∨ ty = 0x03) :
    parseFrame ty = parseAckFrameChecked ty ∧ ((∃ reason last, fromBytes pkt octets = .error (.error reason) last) ∨
        ∃ ackDelay ranges ecnCounts last, fromBytes pkt octets = .ok (.ack ackDelay ranges ecnCounts) last ∧
          Normalised payload ranges ∧ Reencodes pkt (.ack ackDelay ranges ecnCounts)) := by
  have dispatch : parseFrame ty = parseAckFrame ty := by
    rcases isAck with rfl | rfl <;> rfl
  refine ⟨dispatch.trans (parseAckFrame_checked ty).symm, ?_⟩
  rw [fromBytes, bind_ok typed, dispatch]
  rcases parseAckFrame_cases ty payload with
    ⟨reason, last, failed⟩ | ⟨frame, last, largest, count, rest, read, header, parsed⟩
  · exact .inl ⟨reason, last, bind_error failed _⟩
  rw [bind_ok read]
  by_cases permitted : allowed pkt frame = true
  · rw [if_pos permitted]
    cases frame with
    | ack ackDelay ranges ecnCounts =>
      obtain ⟨_, ⟨smallest, gathered⟩, _⟩ := id parsed
      have total : ranges.len = count + 1 := gathered.length.trans (Nat.add_comm 1 count)
      exact .inr ⟨ackDelay, ranges, ecnCounts, last, rfl,
        ⟨gathered.acknowledges, largest, count, rest, header, gathered.last, total⟩, parsed.reencodes permitted⟩
    | _ => exact absurd parsed id
  · rw [if_neg permitted]
    exact .inl ⟨.invalidPacket, last, rfl⟩

/-- Blocks 9 to 11 and 4 to 6. -/
theorem ack_parsing_normalised_blocks : parseFrame 0x02 = parseAckFrameChecked 0x02 ∧
      ((∃ reason last, fromBytes .short (withSlice [0x02, 11, 7, 1, 2, 1, 2]) = .error (.error reason) last) ∨
        ∃ ackDelay ranges ecnCounts last,
          fromBytes .short (withSlice [0x02, 11, 7, 1, 2, 1, 2]) = .ok (.ack ackDelay ranges ecnCounts) last ∧
          Normalised ⟨[0x02, 11, 7, 1, 2, 1, 2], 1, by decide⟩ ranges ∧
          Reencodes .short (.ack ackDelay ranges ecnCounts)) := ack_parsing_normalised .short rfl (.inl rfl)

end Reparse

end Frame

end Quiche
