import Quiche.H3.Process.Admission

namespace Quiche.H3

open Data

/-- The trailers arrived, and no DATA frame before them. -/
def Bodyless (types : List Nat) : Prop :=
  ∃ before between after, (∀ ty ∈ before, Unknown ty) ∧ (∀ ty ∈ between, Unknown ty) ∧ (∀ ty ∈ after, Unknown ty) ∧
    types = before ++ headersFrameTypeId :: (between ++ headersFrameTypeId :: after)

theorem Phase.bodyless_iff {types : List Nat} : Bodyless types ↔ start.run types = some (.trailers false) := by
  constructor
  · rintro ⟨before, between, after, first, second, last, rfl⟩
    rw [run_append, run_unknown first]
    show (Phase.body false).run (between ++ headersFrameTypeId :: after) = _
    rw [run_append, run_unknown second]
    exact run_unknown last
  · intro ran
    obtain ⟨before, body, after, first, parts, last, seen, rfl⟩ := run_shape ran
    refine ⟨before, body, after, first, fun ty member => ?_, last, rfl⟩
    rcases parts ty member with rfl | unknown
    · exact absurd (seen.mpr member) (by decide)
    · exact unknown

theorem Viable.front {types rest : List Nat} (viable : Viable (types ++ rest)) : Viable types := by
  obtain ⟨more, matched⟩ := viable
  exact ⟨rest ++ more, by rwa [← List.append_assoc]⟩

abbrev Arrival := Nat × List UInt8

def types (frames : List Arrival) : List Nat := frames.map Prod.fst

theorem types_append (first second : List Arrival) : types (first ++ second) = types first ++ types second :=
  List.map_append

theorem viable_nil : Viable [] := ⟨[headersFrameTypeId], [], [], by simp, by simp, .inl rfl⟩

theorem offending_exists {frames : List Arrival} (broken : ¬ Viable (types frames)) :
    ∃ front frame back, frames = front ++ frame :: back ∧ Viable (types front) ∧
      ¬ Viable (types (front ++ [frame])) := by
  induction frames using List.reverseRecOn with
  | nil => exact absurd viable_nil broken
  | append_singleton frames frame ih =>
    by_cases viable : Viable (types frames)
    · exact ⟨frames, frame, [], rfl, viable, broken⟩
    · obtain ⟨front, first, back, rfl, good, bad⟩ := ih viable
      exact ⟨front, first, back ++ [frame], by simp, good, bad⟩

namespace Processor

variable {processor : Processor} {inquiry : Inquiry} {phase after : Phase} {streamId limit : Nat}
  {frames front back : List Arrival} {frame : Arrival}

/-- Every HEADERS frame decodes within the limit. -/
def Decodes (limit : Nat) (frames : List Arrival) : Prop :=
  ∀ frame ∈ frames, frame.1 = headersFrameTypeId → ∃ headers, Qpack.decode frame.2 limit = .ok headers

/-- The frames are received without an error. -/
def Accepts (inquiry : Inquiry) (streamId : Nat) (processor : Processor) (frames : List Arrival) : Prop :=
  ∃ last, receiveFrames inquiry streamId frames processor = .ok () last

/-- The frames in front are accepted, and the next one yields `FrameUnexpected`. -/
def Unexpected (inquiry : Inquiry) (streamId : Nat) (processor : Processor) (front : List Arrival)
    (frame : Arrival) : Prop := ∃ middle last, receiveFrames inquiry streamId front processor = .ok () middle ∧
    receiveFrame inquiry streamId frame.1 frame.2 middle = .error (.error .frameUnexpected) last

/-- The frames are accepted while they can begin a message, and the first that cannot is refused as unexpected. -/
structure Recognised (inquiry : Inquiry) (streamId : Nat) (processor : Processor) (frames : List Arrival) : Prop where
  accepts : Accepts inquiry streamId processor frames ↔ Viable (types frames)
  unexpected : ∀ front frame back, frames = front ++ frame :: back → Viable (types front) →
    ¬ Viable (types (front ++ [frame])) → Unexpected inquiry streamId processor front frame

/-- Payloads fit into the state buffer, and the frame is no DATA frame behind trailers that followed no body. -/
structure Regular (front : List Arrival) (frame : Arrival) : Prop where
  small : Viable (types (front ++ [frame])) → frame.1 ≠ dataFrameTypeId → frame.2.length ≤ maxStateBufSize
  lateData : frame.1 = dataFrameTypeId → ¬ Bodyless (types front)
  lateHeaders : frame.1 = headersFrameTypeId → Bodyless (types front) → frame.2.length ≤ maxStateBufSize
  promise : frame.1 = pushPromiseFrameTypeId → frame.2.length ≤ maxStateBufSize ∧
    ∃ id rest, id < 2 ^ 62 ∧ frame.2 = Octets.varint id ++ rest

section Runs

theorem receiveFrames_append (front back : List Arrival) : receiveFrames inquiry streamId (front ++ back) processor =
      (receiveFrames inquiry streamId front >>= fun _ => receiveFrames inquiry streamId back) processor := by
  induction front generalizing processor with
  | nil => rfl
  | cons frame front ih =>
    obtain ⟨ty, payload⟩ := frame
    simp only [List.cons_append, receiveFrames, bind_assoc]
    cases received : receiveFrame inquiry streamId ty payload processor with
    | ok event next => rw [bind_ok received, bind_ok received, ih]
    | error failure last => rw [bind_error received, bind_error received]

theorem Accepts.front_exists (accepted : Accepts inquiry streamId processor (front ++ back)) :
    ∃ middle last, receiveFrames inquiry streamId front processor = .ok () middle ∧
      receiveFrames inquiry streamId back middle = .ok () last := by
  obtain ⟨last, returned⟩ := accepted
  rw [receiveFrames_append] at returned
  obtain ⟨value, middle, first, second⟩ := bind_eq_ok returned
  exact ⟨middle, last, first, second⟩

theorem Serves.run (serves : Serves streamId limit phase processor) (inquiry : Inquiry)
    (ran : phase.run (types frames) = some after) (decodes : Decodes limit frames)
    (small : ∀ frame ∈ frames, frame.1 ≠ dataFrameTypeId → frame.2.length ≤ maxStateBufSize) :
    ∃ last, receiveFrames inquiry streamId frames processor = .ok () last ∧ Serves streamId limit after last := by
  induction frames generalizing phase processor with
  | nil =>
    cases ran
    exact ⟨processor, rfl, serves⟩
  | cons frame frames ih =>
    obtain ⟨ty, payload⟩ := frame
    obtain ⟨middle, moved, rest⟩ := Option.bind_eq_some_iff.mp ran
    obtain ⟨decodesHead, decodesTail⟩ := List.forall_mem_cons.mp decodes
    obtain ⟨smallHead, smallTail⟩ := List.forall_mem_cons.mp small
    obtain ⟨event, next, received, servesNext⟩ := serves.accepted inquiry moved smallHead decodesHead
    obtain ⟨last, returned, servesLast⟩ := ih servesNext rest decodesTail smallTail
    exact ⟨last, (bind_ok received _).trans returned, servesLast⟩

theorem Serves.run_small (serves : Serves streamId limit phase processor)
    (ran : phase.run (types frames) = some after) (decodes : Decodes limit frames)
    (accepted : Accepts inquiry streamId processor frames) :
    ∀ frame ∈ frames, frame.1 ≠ dataFrameTypeId → frame.2.length ≤ maxStateBufSize := by
  induction frames generalizing phase processor with
  | nil => simp
  | cons frame frames ih =>
    obtain ⟨ty, payload⟩ := frame
    obtain ⟨middle, moved, rest⟩ := Option.bind_eq_some_iff.mp ran
    obtain ⟨decodesHead, decodesTail⟩ := List.forall_mem_cons.mp decodes
    obtain ⟨last, returned⟩ := accepted
    obtain ⟨event, next, received, tail⟩ := bind_eq_ok returned
    have smallHead : ty ≠ dataFrameTypeId → payload.length ≤ maxStateBufSize := by
      intro other
      by_contra long
      obtain ⟨refused, failed⟩ := serves.long inquiry moved other (Nat.lt_of_not_le long)
      rw [failed] at received
      cases received
    obtain ⟨event, kept, again, servesNext⟩ := serves.accepted inquiry moved smallHead decodesHead
    rw [received] at again
    cases again
    exact List.forall_mem_cons.mpr ⟨smallHead, ih servesNext rest decodesTail ⟨last, tail⟩⟩

end Runs

section Refusals

theorem Serves.stuck_iff (serves : Serves streamId limit phase processor) (inquiry : Inquiry)
    (stuck : phase.next frame.1 = none) :
    (∃ last, receiveFrame inquiry streamId frame.1 frame.2 processor = .error (.error .frameUnexpected) last) ↔
      (frame.1 = dataFrameTypeId → phase ≠ .trailers false) ∧
        (frame.1 = headersFrameTypeId → phase = .trailers false → frame.2.length ≤ maxStateBufSize) ∧
        (frame.1 = pushPromiseFrameTypeId → frame.2.length ≤ maxStateBufSize ∧
          ∃ id rest, id < 2 ^ 62 ∧ frame.2 = Octets.varint id ++ rest) := by
  obtain ⟨ty, payload⟩ := frame
  constructor
  · rintro ⟨last, failed⟩
    refine ⟨?_, ?_, ?_⟩
    · rintro rfl rfl
      obtain ⟨next, received⟩ := serves.lateData inquiry payload
      rw [failed] at received
      cases received
    · rintro rfl rfl
      obtain ⟨closed, received⟩ := serves.lateHeaders inquiry payload
      by_contra long
      rw [failed, if_neg long] at received
      cases received
    · rintro rfl
      by_contra broken
      obtain ⟨error, closed, other, received⟩ := serves.broken inquiry broken
      rw [failed] at received
      cases received
      exact other rfl
  · rintro ⟨lateData, lateHeaders, promise⟩
    obtain ⟨stream, found, showing, state, _⟩ := serves.stream
    rcases showing.refused stuck with refused | rfl | ⟨rfl, rfl | rfl⟩
    · exact serves.filtered inquiry found state refused
    · obtain ⟨small, id, rest, bound, spelled⟩ := promise rfl
      exact serves.promise inquiry small bound spelled
    · have small := lateHeaders rfl rfl
      obtain ⟨last, failed⟩ := serves.lateHeaders inquiry payload
      rw [if_pos small] at failed
      exact ⟨last, failed⟩
    · exact absurd rfl (lateData rfl)

end Refusals

/-- The server is open, and the bidirectional stream just begins. -/
structure Opens (streamId : Nat) (processor : Processor) : Prop where
  server : processor.isServer = true
  open_ : processor.localError = none
  bidi : isBidi streamId = true
  stream : ∃ update, processor.streams streamId = some { Stream.new streamId false with lastPriorityUpdate := update }

theorem Opens.serves (opens : Opens streamId processor) :
    Serves streamId (processor.maxFieldSectionSize.getD (2 ^ 64 - 1)) .start processor := by
  obtain ⟨update, found⟩ := opens.stream
  have requests : (Stream.new streamId false).ty = some .request := if_pos opens.bidi
  have reads : (Stream.new streamId false).state = .frameType := if_pos opens.bidi
  exact ⟨opens.server, opens.open_, rfl, _, found, ⟨requests, rfl, rfl, rfl, rfl⟩, reads, rfl⟩

section Recognition

theorem Decodes.before (decodes : Decodes limit (front ++ back)) : Decodes limit front :=
  fun frame member => decodes frame (List.mem_append_left back member)

theorem types_snoc (front : List Arrival) (frame : Arrival) : types (front ++ [frame]) = types front ++ [frame.1] :=
  types_append front [frame]

theorem Recognised.accepts_front (recognised : Recognised inquiry streamId processor (front ++ back))
    (viable : Viable (types front)) : Accepts inquiry streamId processor front := by
  by_cases whole : Viable (types (front ++ back))
  · obtain ⟨middle, _, returned, _⟩ := (recognised.accepts.mpr whole).front_exists
    exact ⟨middle, returned⟩
  · obtain ⟨good, frame, rest, split, goodViable, bad⟩ := offending_exists whole
    obtain ⟨middle, _, returned, _⟩ := recognised.unexpected good frame rest split goodViable bad
    rcases List.append_eq_append_iff.mp split with ⟨more, rfl, _⟩ | ⟨more, rfl, tail⟩
    · have accepted : Accepts inquiry streamId processor (front ++ more) := ⟨middle, returned⟩
      obtain ⟨reached, _, first, _⟩ := accepted.front_exists
      exact ⟨reached, first⟩
    · cases more with
      | nil =>
        rw [List.append_nil]
        exact ⟨middle, returned⟩
      | cons head more =>
        obtain ⟨rfl, _⟩ := List.cons.inj tail
        have shorter : Viable (types (good ++ [frame])) := by
          rw [List.append_cons, types_append] at viable
          exact viable.front
        exact absurd shorter bad

theorem Opens.reached (opens : Opens streamId processor) (inquiry : Inquiry)
    (decodes : Decodes (processor.maxFieldSectionSize.getD (2 ^ 64 - 1)) front)
    (small : ∀ frame ∈ front, frame.1 ≠ dataFrameTypeId → frame.2.length ≤ maxStateBufSize)
    (viable : Viable (types front)) : ∃ phase middle, Phase.start.run (types front) = some phase ∧
      receiveFrames inquiry streamId front processor = .ok () middle ∧
      Serves streamId (processor.maxFieldSectionSize.getD (2 ^ 64 - 1)) phase middle := by
  obtain ⟨phase, ran⟩ := Phase.viable_iff.mp viable
  obtain ⟨middle, returned, serves⟩ := opens.serves.run inquiry ran decodes small
  exact ⟨phase, middle, ran, returned, serves⟩

theorem Recognised.regular (opens : Opens streamId processor)
    (decodes : Decodes (processor.maxFieldSectionSize.getD (2 ^ 64 - 1)) (front ++ frame :: back))
    (recognised : Recognised inquiry streamId processor (front ++ frame :: back)) (viable : Viable (types front)) :
    Regular front frame := by
  have small : ∀ part ∈ front, part.1 ≠ dataFrameTypeId → part.2.length ≤ maxStateBufSize := by
    obtain ⟨phase, ran⟩ := Phase.viable_iff.mp viable
    exact opens.serves.run_small ran decodes.before (recognised.accepts_front viable)
  obtain ⟨phase, middle, ran, returned, serves⟩ := opens.reached inquiry decodes.before small viable
  have stuck : phase.next frame.1 = none → (frame.1 = dataFrameTypeId → phase ≠ .trailers false) ∧
      (frame.1 = headersFrameTypeId → phase = .trailers false → frame.2.length ≤ maxStateBufSize) ∧
      (frame.1 = pushPromiseFrameTypeId → frame.2.length ≤ maxStateBufSize ∧
        ∃ id rest, id < 2 ^ 62 ∧ frame.2 = Octets.varint id ++ rest) := by
    intro stuck
    have broken : ¬ Viable (types (front ++ [frame])) := by
      rw [types_snoc, Phase.viable_iff, Phase.run_snoc, ran, Option.bind_some, stuck]
      simp
    obtain ⟨reached, last, again, failed⟩ := recognised.unexpected front frame back rfl viable broken
    rw [returned] at again
    cases again
    exact (serves.stuck_iff inquiry stuck).mp ⟨last, failed⟩
  refine ⟨fun longer => ?_, fun data bodyless => ?_, fun header bodyless => ?_, fun promise => ?_⟩
  · have accepted : Accepts inquiry streamId processor (front ++ [frame]) := by
      rw [List.append_cons] at recognised
      exact recognised.accepts_front longer
    obtain ⟨after, ranLonger⟩ := Phase.viable_iff.mp longer
    have decodesLonger : Decodes (processor.maxFieldSectionSize.getD (2 ^ 64 - 1)) (front ++ [frame]) := by
      rw [List.append_cons] at decodes
      exact decodes.before
    exact opens.serves.run_small ranLonger decodesLonger accepted frame (by simp)
  · rw [Phase.bodyless_iff, ran] at bodyless
    cases bodyless
    rw [data] at stuck
    exact (stuck (Phase.next_trailers Phase.data_known)).1 rfl rfl
  · rw [Phase.bodyless_iff, ran] at bodyless
    cases bodyless
    rw [header] at stuck
    exact (stuck (Phase.next_trailers Phase.headers_known)).2.1 rfl rfl
  · refine (stuck ?_).2.2 promise
    cases moved : phase.next frame.1 with
    | none => rfl
    | some after =>
      have kinds := kinds_of_moved moved
      rw [promise] at kinds
      exact absurd kinds (by decide)

theorem small_of_regular (front back : List Arrival)
    (regular : ∀ first frame rest, front ++ back = first ++ frame :: rest → Viable (types first) → Regular first frame)
    (viable : Viable (types front)) :
    ∀ frame ∈ front, frame.1 ≠ dataFrameTypeId → frame.2.length ≤ maxStateBufSize := by
  intro frame member
  obtain ⟨first, rest, rfl⟩ := List.append_of_mem member
  have longer : Viable (types (first ++ [frame])) := by
    rw [List.append_cons, types_append] at viable
    exact viable.front
  have shorter : Viable (types first) := by
    rw [types_append] at longer
    exact longer.front
  exact (regular first frame (rest ++ back) (by simp) shorter).small longer

theorem Opens.unexpected (opens : Opens streamId processor)
    (decodes : Decodes (processor.maxFieldSectionSize.getD (2 ^ 64 - 1)) front)
    (small : ∀ frame ∈ front, frame.1 ≠ dataFrameTypeId → frame.2.length ≤ maxStateBufSize)
    (viable : Viable (types front)) (broken : ¬ Viable (types (front ++ [frame]))) (regular : Regular front frame) :
    Unexpected inquiry streamId processor front frame := by
  obtain ⟨phase, middle, ran, returned, serves⟩ := opens.reached inquiry decodes small viable
  have stuck : phase.next frame.1 = none := by
    cases moved : phase.next frame.1 with
    | none => rfl
    | some after =>
      refine absurd (Phase.viable_iff.mpr ⟨after, ?_⟩) broken
      rw [types_snoc, Phase.run_snoc, ran]
      exact moved
  have conditions : (frame.1 = dataFrameTypeId → phase ≠ .trailers false) ∧
      (frame.1 = headersFrameTypeId → phase = .trailers false → frame.2.length ≤ maxStateBufSize) ∧
      (frame.1 = pushPromiseFrameTypeId → frame.2.length ≤ maxStateBufSize ∧
        ∃ id rest, id < 2 ^ 62 ∧ frame.2 = Octets.varint id ++ rest) := by
    refine ⟨?_, ?_, regular.promise⟩
    · rintro data rfl
      exact regular.lateData data (Phase.bodyless_iff.mpr ran)
    · rintro header rfl
      exact regular.lateHeaders header (Phase.bodyless_iff.mpr ran)
  obtain ⟨last, failed⟩ := (serves.stuck_iff inquiry stuck).mpr conditions
  exact ⟨middle, last, returned, failed⟩

theorem recognised_of_regular (opens : Opens streamId processor)
    (decodes : Decodes (processor.maxFieldSectionSize.getD (2 ^ 64 - 1)) frames)
    (regular : ∀ front frame back, frames = front ++ frame :: back → Viable (types front) → Regular front frame) :
    Recognised inquiry streamId processor frames := by
  have unexpected : ∀ front frame back, frames = front ++ frame :: back → Viable (types front) →
      ¬ Viable (types (front ++ [frame])) → Unexpected inquiry streamId processor front frame := by
    rintro front frame back rfl viable broken
    exact opens.unexpected decodes.before (small_of_regular _ _ regular viable) viable broken
      (regular front frame back rfl viable)
  refine ⟨⟨fun accepted => ?_, fun viable => ?_⟩, unexpected⟩
  · by_contra broken
    obtain ⟨front, frame, back, rfl, good, bad⟩ := offending_exists broken
    obtain ⟨middle, last, returned, failed⟩ := unexpected front frame back rfl good bad
    obtain ⟨reached, _, first, second⟩ := accepted.front_exists
    rw [returned] at first
    cases first
    obtain ⟨event, next, received, _⟩ := bind_eq_ok second
    rw [failed] at received
    cases received
  · have small := small_of_regular frames [] (by simpa using regular) viable
    obtain ⟨_, middle, _, returned, _⟩ := opens.reached inquiry decodes small viable
    exact ⟨middle, returned⟩

end Recognition

/-- A server recognises request messages exactly where every frame behind those of a message is
regular. -/
theorem recognised_iff (inquiry : Inquiry) (opens : Opens streamId processor)
    (decodes : Decodes (processor.maxFieldSectionSize.getD (2 ^ 64 - 1)) frames) :
    Recognised inquiry streamId processor frames ↔
      ∀ front frame back, frames = front ++ frame :: back → Viable (types front) → Regular front frame := by
  constructor
  · rintro recognised front frame back rfl viable
    exact recognised.regular opens decodes viable
  · exact recognised_of_regular opens decodes

def quiet : Inquiry := ⟨none, fun _ => false, 100, fun _ => false⟩

def opened : Processor :=
  ⟨true, none, fun id => if id = 0 then some (Stream.new 0 false) else none, .none, none, 0, none⟩

theorem opened_opens : Opens 0 opened := ⟨rfl, rfl, by decide, none, rfl⟩

def emptyBlock : List UInt8 := [0, 0]

theorem decode_emptyBlock : Qpack.decode emptyBlock (2 ^ 64 - 1) = .ok [] := by decide +kernel

theorem decodes_empty (empty : ∀ frame ∈ frames, frame.1 = headersFrameTypeId → frame.2 = emptyBlock) :
    Decodes (opened.maxFieldSectionSize.getD (2 ^ 64 - 1)) frames := by
  intro frame member header
  rw [empty frame member header]
  exact ⟨[], decode_emptyBlock⟩

theorem recognised_iff_posted :
    Recognised quiet 0 opened [(headersFrameTypeId, emptyBlock), (dataFrameTypeId, [7])] := by
  refine (recognised_iff quiet opened_opens
    (decodes_empty (by simp [emptyBlock, headersFrameTypeId, dataFrameTypeId]))).mpr ?_
  intro front frame back split _
  match front, split with
  | [], split =>
    cases split
    exact ⟨fun _ _ => by decide, fun data => absurd data (by decide), fun _ _ => by decide,
      fun promise => absurd promise (by decide)⟩
  | [_], split =>
    cases split
    refine ⟨fun _ other => absurd rfl other, fun _ => ?_, fun header => absurd header (by decide),
      fun promise => absurd promise (by decide)⟩
    rw [Phase.bodyless_iff]
    decide
  | _ :: _ :: front, split =>
    simp only [List.cons_append, List.cons.injEq] at split
    exact absurd split.2.2 (by simp)

def trailed : List Arrival := [(headersFrameTypeId, emptyBlock), (headersFrameTypeId, emptyBlock)]

theorem receiveFrames_snoc {middle : Processor}
    (returned : receiveFrames inquiry streamId front processor = .ok () middle) (frame : Arrival) :
    receiveFrames inquiry streamId (front ++ [frame]) processor =
      (receiveFrame inquiry streamId frame.1 frame.2 >>= fun _ => pure ()) middle := by
  rw [receiveFrames_append, bind_ok returned]
  rfl

theorem late_body_accepted : Accepts quiet 0 opened (trailed ++ [(dataFrameTypeId, [7])]) ∧
      ¬ Viable (types (trailed ++ [(dataFrameTypeId, [7])])) ∧
      ¬ Recognised quiet 0 opened (trailed ++ [(dataFrameTypeId, [7])]) ∧ ∃ error last, error ≠ .frameUnexpected ∧
        receiveFrames quiet 0 (trailed ++ [(pushPromiseFrameTypeId, [])]) opened = .error (.error error) last := by
  have decodes : Decodes (opened.maxFieldSectionSize.getD (2 ^ 64 - 1)) trailed := decodes_empty (by simp [trailed])
  have small : ∀ frame ∈ trailed, frame.1 ≠ dataFrameTypeId → frame.2.length ≤ maxStateBufSize := by
    simp [trailed, emptyBlock, maxStateBufSize]
  have ran : Phase.start.run (types trailed) = some (.trailers false) := by decide
  obtain ⟨middle, returned, serves⟩ := opened_opens.serves.run quiet ran decodes small
  have accepted : Accepts quiet 0 opened (trailed ++ [(dataFrameTypeId, [7])]) := by
    obtain ⟨last, received⟩ := serves.lateData quiet [7]
    refine ⟨last, ?_⟩
    rw [receiveFrames_snoc returned, bind_ok received]
    rfl
  have broken : ¬ Viable (types (trailed ++ [(dataFrameTypeId, [7])])) := by
    rw [Phase.viable_iff, types_snoc, Phase.run_snoc, ran]
    rintro ⟨phase, moved⟩
    cases moved
  have malformed : ¬ (([] : List UInt8).length ≤ maxStateBufSize ∧
      ∃ id rest, id < 2 ^ 62 ∧ ([] : List UInt8) = Octets.varint id ++ rest) := by
    rintro ⟨_, id, rest, bound, spelled⟩
    have positive := (Octets.spells_varint bound).length_pos
    have empty := congrArg List.length spelled
    rw [List.length_append, List.length_nil] at empty
    omega
  obtain ⟨error, last, other, refused⟩ := serves.broken quiet malformed
  refine ⟨accepted, broken, fun recognised => broken (recognised.accepts.mp accepted), error, last, other, ?_⟩
  rw [receiveFrames_snoc returned, bind_error refused]

end Processor

end Quiche.H3
