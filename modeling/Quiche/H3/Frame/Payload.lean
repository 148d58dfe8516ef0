import Quiche.H3.Frame
import Quiche.Octets.Spelled

namespace Quiche.H3.Frame

open Data Octets

variable {frameType id payloadLength fuel : Nat} {payload bytes rest extra : List UInt8}
  {make : List UInt8 → Frame} {makeId : Nat → Frame} {makeBoth : Nat → List UInt8 → Frame}
  {pairs raw : List (Nat × Nat)} {parsed : Settings} {state : Octets}

def knownTypes : List Nat :=
  [dataFrameTypeId, headersFrameTypeId, cancelPushFrameTypeId, settingsFrameTypeId, pushPromiseFrameTypeId,
    goawayFrameTypeId, maxPushFrameTypeId, priorityUpdateFrameRequestTypeId, priorityUpdateFramePushTypeId]

section Shapes

/-- The types whose payload is one string of bytes. -/
inductive PlainType : Nat → (List UInt8 → Frame) → Prop where
  | data : PlainType dataFrameTypeId .data
  | headers : PlainType headersFrameTypeId .headers
  | unknown {frameType : Nat} (unknown : frameType ∉ knownTypes) : PlainType frameType (.unknown frameType)

/-- The types whose payload is one integer. -/
inductive IdType : Nat → (Nat → Frame) → Prop where
  | cancelPush : IdType cancelPushFrameTypeId .cancelPush
  | goAway : IdType goawayFrameTypeId .goAway
  | maxPushId : IdType maxPushFrameTypeId .maxPushId

/-- The types whose payload is an integer in front of a string of bytes. -/
inductive RestType : Nat → (Nat → List UInt8 → Frame) → Prop where
  | pushPromise : RestType pushPromiseFrameTypeId .pushPromise
  | priorityUpdateRequest : RestType priorityUpdateFrameRequestTypeId .priorityUpdateRequest
  | priorityUpdatePush : RestType priorityUpdateFramePushTypeId .priorityUpdatePush

theorem parse_plain (shape : PlainType frameType make) (payloadLength : Nat) :
    parse frameType payloadLength = make <$> octets (getBytes payloadLength) := by
  cases shape with
  | data => rfl
  | headers => rfl
  | unknown unknown =>
    simp only [knownTypes, List.mem_cons, List.not_mem_nil, or_false, not_or] at unknown
    simp only [parse, if_neg unknown.1, if_neg unknown.2.1, if_neg unknown.2.2.1, if_neg unknown.2.2.2.1,
      if_neg unknown.2.2.2.2.1, if_neg unknown.2.2.2.2.2.1, if_neg unknown.2.2.2.2.2.2.1,
      if_neg unknown.2.2.2.2.2.2.2.1, if_neg unknown.2.2.2.2.2.2.2.2]

theorem parse_id (shape : IdType frameType makeId) (payloadLength : Nat) :
    parse frameType payloadLength = makeId <$> octets getVarint := by
  cases shape <;> rfl

theorem parse_rest (shape : RestType frameType makeBoth) (payloadLength : Nat) :
    parse frameType payloadLength = (fun (id, rest) => makeBoth id rest) <$> parseIdAndRest payloadLength := by
  cases shape <;> rfl

theorem shape_exists (frameType : Nat) :
    (∃ make, PlainType frameType make) ∨ (∃ make, IdType frameType make) ∨ (∃ make, RestType frameType make) ∨
      frameType = settingsFrameTypeId := by
  by_cases unknown : frameType ∉ knownTypes
  · exact .inl ⟨_, .unknown unknown⟩
  · simp only [knownTypes, List.mem_cons, List.not_mem_nil, or_false, not_not] at unknown
    rcases unknown with rfl | rfl | rfl | rfl | rfl | rfl | rfl | rfl | rfl
    · exact .inl ⟨_, .data⟩
    · exact .inl ⟨_, .headers⟩
    · exact .inr (.inl ⟨_, .cancelPush⟩)
    · exact .inr (.inr (.inr rfl))
    · exact .inr (.inr (.inl ⟨_, .pushPromise⟩))
    · exact .inr (.inl ⟨_, .goAway⟩)
    · exact .inr (.inl ⟨_, .maxPushId⟩)
    · exact .inr (.inr (.inl ⟨_, .priorityUpdateRequest⟩))
    · exact .inr (.inr (.inl ⟨_, .priorityUpdatePush⟩))

end Shapes

section Calls

variable {Value Result : Type} {call : Octets.Action Value} {input : List UInt8} {value : Value}

def outcome (call : Parser Frame) (bytes : List UInt8) : Except Failure Frame :=
  match call (withSlice bytes) with
  | .ok frame _ => .ok frame
  | .error failure _ => .error failure

theorem fromBytes_eq (frameType payloadLength : Nat) (bytes : List UInt8) :
    fromBytes frameType payloadLength bytes = outcome (parse frameType payloadLength) bytes := rfl

theorem outcome_map_ok {call : Parser Value} {f : Value → Frame} {after : Octets}
    (returned : call (withSlice bytes) = .ok value after) : outcome (f <$> call) bytes = .ok (f value) := by
  rw [outcome, map_eq_pure_bind, bind_ok returned]
  rfl

theorem outcome_map_error {call : Parser Value} {f : Value → Frame} {failure : Failure} {after : Octets}
    (failed : call (withSlice bytes) = .error failure after) : outcome (f <$> call) bytes = .error failure := by
  rw [outcome, map_eq_pure_bind, bind_error failed]

end Calls

section Plain

theorem fromBytes_plain (shape : PlainType frameType make) (payload : List UInt8) :
    fromBytes frameType payload.length payload = .ok (make payload) := by
  have front : (withSlice payload).rest = payload ++ [] := by rw [List.append_nil]; rfl
  rw [fromBytes_eq, parse_plain shape]
  exact outcome_map_ok ((reads_getBytes payload).adaptExcept ofFault _ _ front)

end Plain

section Id

theorem fromBytes_id (shape : IdType frameType makeId) (payloadLength : Nat) (spelled : Spells bytes id)
    (extra : List UInt8) : fromBytes frameType payloadLength (bytes ++ extra) = .ok (makeId id) := by
  rw [fromBytes_eq, parse_id shape]
  exact outcome_map_ok ((reads_spelled spelled).adaptExcept ofFault _ extra rfl)

theorem octets_getVarint_cases (state : Octets) : octets getVarint state = .error (.error .bufferTooShort) state ∨
      ∃ bytes tail value, state.rest = bytes ++ tail ∧ Spells bytes value := by
  rcases getVarint_cases state with short | spelled
  · exact .inl (adaptExcept_error short ofFault)
  · exact .inr spelled

theorem fromBytes_id_cases (shape : IdType frameType makeId) (payloadLength : Nat) (payload : List UInt8) :
    fromBytes frameType payloadLength payload = .error (.error .bufferTooShort) ∨
      ∃ bytes extra id, payload = bytes ++ extra ∧ Spells bytes id := by
  rcases octets_getVarint_cases (withSlice payload) with short | ⟨bytes, tail, value, front, spelled⟩
  · left
    rw [fromBytes_eq, parse_id shape]
    exact outcome_map_error short
  · exact .inr ⟨bytes, tail, value, front, spelled⟩

end Id

section Rest

theorem parseIdAndRest_run (spelled : Spells bytes id) (rest : List UInt8) : (bytes.length = (varint id).length ∧
        ∃ after, parseIdAndRest (bytes ++ rest).length (withSlice (bytes ++ rest)) = .ok (id, rest) after) ∨
      ((varint id).length < bytes.length ∧ ∃ after, parseIdAndRest (bytes ++ rest).length (withSlice (bytes ++ rest)) =
          .error (.error .bufferTooShort) after) := by
  obtain ⟨least, width, leastLe, leastEq⟩ := spelled.varintLen_exists
  have read := (reads_spelled spelled).adaptExcept ofFault (withSlice (bytes ++ rest)) rest rfl
  have behind : (cursor.advance bytes.length (withSlice (bytes ++ rest))).rest = rest := cursor.rest_behind rfl
  have total : (bytes ++ rest).length = bytes.length + rest.length := List.length_append
  have difference : (varintLen id).bind (subChecked (bytes ++ rest).length) = some ((bytes ++ rest).length - least) := by
    rw [width, Option.bind_some, subChecked_of_le (by omega)]
  rw [← leastEq]
  rcases Nat.lt_or_eq_of_le leastLe with wider | same
  · right
    refine ⟨wider, cursor.advance bytes.length (withSlice (bytes ++ rest)), (bind_ok read _).trans ?_⟩
    rw [difference]
    have less : (cursor.advance bytes.length (withSlice (bytes ++ rest))).cap < (bytes ++ rest).length - least := by
      rw [← rest_length, behind]
      omega
    have short : getBytes ((bytes ++ rest).length - least) (cursor.advance bytes.length (withSlice (bytes ++ rest))) =
        .error (.error .bufferTooShort) _ := congrFun (if_pos less) _
    exact bind_error (adaptExcept_error short ofFault) _
  · left
    refine ⟨same.symm, cursor.advance rest.length (cursor.advance bytes.length (withSlice (bytes ++ rest))),
      (bind_ok read _).trans ?_⟩
    have remaining : (bytes ++ rest).length - least = rest.length := by omega
    rw [difference, remaining]
    have front : cursor.rest (cursor.advance bytes.length (withSlice (bytes ++ rest))) = rest ++ [] := by
      rw [List.append_nil]
      exact behind
    exact bind_ok ((reads_getBytes rest).adaptExcept ofFault _ [] front) _

theorem fromBytes_rest (shape : RestType frameType makeBoth) (spelled : Spells bytes id) (rest : List UInt8) :
    fromBytes frameType (bytes ++ rest).length (bytes ++ rest) =
      if bytes.length = (varint id).length then .ok (makeBoth id rest) else .error (.error .bufferTooShort) := by
  rw [fromBytes_eq, parse_rest shape]
  rcases parseIdAndRest_run spelled rest with ⟨same, after, read⟩ | ⟨wider, after, failed⟩
  · rw [if_pos same]
    exact outcome_map_ok read
  · rw [if_neg (by omega)]
    exact outcome_map_error failed

theorem fromBytes_rest_cases (shape : RestType frameType makeBoth) (payloadLength : Nat) (payload : List UInt8) :
    fromBytes frameType payloadLength payload = .error (.error .bufferTooShort) ∨
      ∃ bytes rest id, payload = bytes ++ rest ∧ Spells bytes id := by
  rcases octets_getVarint_cases (withSlice payload) with short | ⟨bytes, tail, value, front, spelled⟩
  · left
    rw [fromBytes_eq, parse_rest shape]
    exact outcome_map_error (bind_error short _)
  · exact .inr ⟨bytes, tail, value, front, spelled⟩

end Rest

section Pairs

/-- The bytes are identifiers and values, in whatever widths. -/
inductive SpellsPairs : List UInt8 → List (Nat × Nat) → Prop where
  | nil : SpellsPairs [] []
  | cons {first second bytes : List UInt8} {identifier value : Nat} {pairs : List (Nat × Nat)}
      (head : Spells first identifier) (val : Spells second value) (rest : SpellsPairs bytes pairs) :
      SpellsPairs (first ++ (second ++ bytes)) ((identifier, value) :: pairs)

/-- The payload is no two varints long. -/
def Cut (bytes : List UInt8) : Prop :=
  ∀ first second tail identifier value, Spells first identifier → Spells second value →
    bytes ≠ first ++ (second ++ tail)

def addSettings (parsed : Settings) : List (Nat × Nat) → Except Error Settings
  | [] => .ok parsed
  | (identifier, value) :: rest => do addSettings (← addSetting parsed identifier value) rest

def settingsOf (pairs : List (Nat × Nat)) : Except Failure Frame :=
  match addSettings .none pairs with
  | .ok parsed => .ok (.settings { parsed with raw := some pairs })
  | .error error => .error (.error error)

theorem SpellsPairs.length_le (spelled : SpellsPairs bytes pairs) : pairs.length ≤ bytes.length := by
  induction spelled with
  | nil => exact Nat.le_refl _
  | cons head val rest ih =>
    have := head.length_pos
    simp only [List.length_cons, List.length_append]
    omega

theorem pairs_exist (payload : List UInt8) :
    ∃ bytes pairs extra, payload = bytes ++ extra ∧ SpellsPairs bytes pairs ∧ Cut extra := by
  induction length : payload.length using Nat.strong_induction_on generalizing payload with
  | _ size ih =>
    by_cases cut : Cut payload
    · exact ⟨[], [], payload, rfl, .nil, cut⟩
    · simp only [Cut, ne_eq, not_forall, not_not] at cut
      obtain ⟨first, second, tail, identifier, value, head, val, rfl⟩ := cut
      have positive := head.length_pos
      have shorter : tail.length < size := by
        simp only [List.length_append] at length
        omega
      obtain ⟨bytes, pairs, extra, rfl, spelled, cut⟩ := ih tail.length shorter tail rfl
      exact ⟨_, _, extra, by simp only [List.append_assoc], .cons head val spelled, cut⟩

variable {settingsLength : Nat}

theorem parseSettings_more (more : state.off < settingsLength) :
    parseSettings (fuel + 1) settingsLength parsed raw state = (do
        let identifier ← octets getVarint
        let value ← octets getVarint
        match addSetting parsed identifier value with
        | .error error => fail error
        | .ok updated => parseSettings fuel settingsLength updated (raw ++ [(identifier, value)]) : Parser Settings)
        state := congrFun (if_pos more) state

theorem off_lt_of_rest (length : state.buf.length = settingsLength)
    (front : state.rest = bytes) (present : bytes ≠ []) : state.off < settingsLength := by
  have size := congrArg List.length front
  have positive := List.length_pos_of_ne_nil present
  rw [rest_length, cap] at size
  omega

theorem parseSettings_pairs (fuel : Nat) (parsed : Settings) (raw : List (Nat × Nat))
    (spelled : SpellsPairs bytes pairs) (length : state.buf.length = settingsLength)
    (front : state.rest = bytes ++ extra) : (∃ error after, addSettings parsed pairs = .error error ∧
        parseSettings (fuel + pairs.length) settingsLength parsed raw state = .error (.error error) after) ∨
      ∃ updated, addSettings parsed pairs = .ok updated ∧
        parseSettings (fuel + pairs.length) settingsLength parsed raw state =
          parseSettings fuel settingsLength updated (raw ++ pairs) (cursor.advance bytes.length state) := by
  induction spelled generalizing state parsed raw with
  | nil =>
    refine .inr ⟨parsed, rfl, ?_⟩
    simp only [List.length_nil, Nat.add_zero, List.append_nil, cursor.advance_zero]
  | @cons first second bytes identifier value pairs head val rest ih =>
    rw [List.append_assoc, List.append_assoc] at front
    have present : first ++ (second ++ (bytes ++ extra)) ≠ [] := by
      have positive := head.length_pos
      intro empty
      rw [(List.append_eq_nil_iff.mp empty).1] at positive
      exact absurd positive (Nat.lt_irrefl 0)
    have turn : parseSettings (fuel + pairs.length + 1) settingsLength parsed raw state = _ :=
      parseSettings_more (off_lt_of_rest length front present)
    have identifierRead := (reads_spelled head).adaptExcept ofFault state _ front
    have behindFirst := cursor.rest_behind front
    have valueRead := (reads_spelled val).adaptExcept ofFault _ _ behindFirst
    have behindSecond := cursor.rest_behind behindFirst
    have place : (cursor.advance second.length (cursor.advance first.length state)).buf.length = settingsLength := length
    rw [List.length_cons, ← Nat.add_assoc, turn, bind_ok identifierRead, bind_ok valueRead, addSettings]
    cases added : addSetting parsed identifier value with
    | error error => exact .inl ⟨error, _, rfl, rfl⟩
    | ok updated =>
      rcases ih updated (raw ++ [(identifier, value)]) place behindSecond with ⟨error, after, refused, failed⟩ | ⟨last,
        taken, continued⟩
      · exact .inl ⟨error, after, refused, failed⟩
      · have total : cursor.advance bytes.length (cursor.advance second.length (cursor.advance first.length state)) =
            cursor.advance (first ++ (second ++ bytes)).length state := by
          rw [cursor.advance_advance, cursor.advance_advance, List.length_append, List.length_append]
        rw [List.append_assoc, List.singleton_append, total] at continued
        exact .inr ⟨last, taken, continued⟩

theorem parseSettings_end (fuel : Nat) (parsed : Settings) (raw : List (Nat × Nat))
    (length : state.buf.length = settingsLength) (cut : Cut state.rest) :
    (state.rest = [] ∧ parseSettings (fuel + 1) settingsLength parsed raw state =
        .ok { parsed with raw := some raw } state) ∨
      (state.rest ≠ [] ∧ ∃ after, parseSettings (fuel + 1) settingsLength parsed raw state =
        .error (.error .bufferTooShort) after) := by
  by_cases empty : state.rest = []
  · have size := congrArg List.length empty
    rw [rest_length, cap, List.length_nil] at size
    have stop : ¬ state.off < settingsLength := by omega
    exact .inl ⟨empty, congrFun (if_neg stop) state⟩
  · refine .inr ⟨empty, ?_⟩
    rw [parseSettings_more (off_lt_of_rest length rfl empty)]
    rcases octets_getVarint_cases state with short | ⟨first, tail, identifier, front, head⟩
    · exact ⟨state, bind_error short _⟩
    have identifierRead := (reads_spelled head).adaptExcept ofFault state _ front
    rw [bind_ok identifierRead]
    rcases octets_getVarint_cases (cursor.advance first.length state) with short | ⟨second, last, value, behind, val⟩
    · exact ⟨_, bind_error short _⟩
    have behindFirst : (cursor.advance first.length state).rest = tail := cursor.rest_behind front
    rw [← behindFirst, behind] at front
    exact absurd front (cut first second last identifier value head val)

theorem fromBytes_settings (spelled : SpellsPairs bytes pairs) (cut : Cut extra) :
    fromBytes settingsFrameTypeId (bytes ++ extra).length (bytes ++ extra) =
      if (bytes ++ extra).length > maxSettingsPayloadSize then .error (.error .excessiveLoad)
      else if extra = [] then settingsOf pairs
      else .error (.error (match addSettings .none pairs with
        | .error error => error
        | .ok _ => .bufferTooShort)) := by
  have enough := spelled.length_le
  have total : (bytes ++ extra).length + 1 = (bytes ++ extra).length - pairs.length + 1 + pairs.length := by
    rw [List.length_append]
    omega
  have behind : (cursor.advance bytes.length (withSlice (bytes ++ extra))).rest = extra := cursor.rest_behind rfl
  have place : (cursor.advance bytes.length (withSlice (bytes ++ extra))).buf.length = (bytes ++ extra).length := rfl
  show outcome (parseSettingsFrame (bytes ++ extra).length) (bytes ++ extra) = _
  rw [parseSettingsFrame]
  split
  · rfl
  rw [settingsOf]
  have front : (withSlice (bytes ++ extra)).rest = bytes ++ extra := rfl
  have whole : (withSlice (bytes ++ extra)).buf.length = (bytes ++ extra).length := rfl
  rcases parseSettings_pairs ((bytes ++ extra).length - pairs.length + 1) .none
    [] spelled whole front with ⟨error, after, refused, failed⟩ | ⟨updated, taken, continued⟩
  · rw [← total] at failed
    rw [refused, outcome, bind_error failed]
    exact (ite_self _).symm
  · rw [← total] at continued
    rw [← behind] at cut
    rw [taken, outcome]
    rcases parseSettings_end _ updated ([] ++ pairs) place cut with ⟨empty, ended⟩ | ⟨present, after, failed⟩
    · rw [behind] at empty
      rw [if_pos empty, bind_ok (continued.trans ended)]
      rfl
    · rw [behind] at present
      rw [if_neg present, bind_error (continued.trans failed)]

end Pairs

end Quiche.H3.Frame
