import Quiche.H3.Frame.Payload

namespace Quiche.H3

open Data Octets

def optional (identifier : Nat) (val : Option Nat) : List (Nat × Nat) := val.toList.map fun val => (identifier, val)

namespace Settings

def announced (settings : Settings) : List (Nat × Nat) := settings.grease.toList ++ settings.additionalSettings.getD []

/-- The settings in the order in which they are written. -/
def pairs (settings : Settings) : List (Nat × Nat) :=
  optional settingsMaxFieldSectionSize settings.maxFieldSectionSize ++
  (optional settingsQpackMaxTableCapacity settings.qpackMaxTableCapacity ++
  (optional settingsQpackBlockedStreams settings.qpackBlockedStreams ++
  (optional settingsEnableConnectProtocol settings.connectProtocolEnabled ++
  (optional settingsH3Datagram00 settings.h3Datagram ++
  (optional settingsH3Datagram settings.h3Datagram ++ settings.announced)))))

def received (settings : Settings) : Settings :=
  { settings with
    grease := .none
    additionalSettings := if settings.announced = [] then .none else some settings.announced
    raw := some settings.pairs }

end Settings

namespace Frame

section Wire

/-- A setting whose integers have a place on the wire. -/
def Fits (pair : Nat × Nat) : Prop := pair.1 < 2 ^ 62 ∧ pair.2 < 2 ^ 62

def pairBytes (pair : Nat × Nat) : List UInt8 := varint pair.1 ++ varint pair.2

def pairsBytes (pairs : List (Nat × Nat)) : List UInt8 := pairs.flatMap pairBytes

variable {pairs first second : List (Nat × Nat)} {identifier : Nat} {val : Option Nat} {settings : Settings}

theorem pairsBytes_append (first second : List (Nat × Nat)) :
    pairsBytes (first ++ second) = pairsBytes first ++ pairsBytes second := List.flatMap_append

theorem spells_pairsBytes (fits : ∀ pair ∈ pairs, Fits pair) : SpellsPairs (pairsBytes pairs) pairs := by
  induction pairs with
  | nil => exact .nil
  | cons pair rest ih =>
    have head := fits pair List.mem_cons_self
    have tail := ih fun other member => fits other (List.mem_cons_of_mem _ member)
    rw [pairsBytes, List.flatMap_cons, pairBytes, List.append_assoc]
    exact .cons (spells_varint head.1) (spells_varint head.2) tail

/-- The length is that of the pairs, and they are what is put. -/
structure Mirrors (len : Option Nat) (put : Octets.Action Unit) (pairs : List (Nat × Nat)) : Prop where
  len : len = some (pairsBytes pairs).length
  put : Appends put (pairsBytes pairs) ()

theorem mirrors_setting (fits : ∀ pair ∈ optional identifier val, Fits pair) :
    Mirrors (settingLen identifier val) (putSetting identifier val) (optional identifier val) := by
  cases val with
  | none => exact ⟨rfl, emits_pure ()⟩
  | some val =>
    obtain ⟨identifierFits, valFits⟩ := fits (identifier, val) (List.mem_singleton_self _)
    have bytes : pairsBytes (optional identifier (some val)) = varint identifier ++ varint val := List.append_nil _
    constructor
    · rw [bytes, List.length_append, settingLen, varintLen_varint identifierFits, varintLen_varint valFits]
      rfl
    · rw [bytes]
      exact (appends_putVarint identifierFits).bind (appends_putVarint valFits)

theorem mirrors_pairs (fits : ∀ pair ∈ pairs, Fits pair) : Mirrors (pairsLen pairs) (putPairs pairs) pairs := by
  induction pairs with
  | nil => exact ⟨rfl, emits_pure ()⟩
  | cons pair rest ih =>
    have head : Mirrors (settingLen pair.1 (some pair.2)) (putSetting pair.1 (some pair.2)) [pair] :=
      mirrors_setting fun other member => fits other (List.mem_singleton.mp member ▸ List.mem_cons_self)
    have tail := ih fun other member => fits other (List.mem_cons_of_mem _ member)
    have bytes : pairsBytes (pair :: rest) = pairsBytes [pair] ++ pairsBytes rest := pairsBytes_append [pair] rest
    constructor
    · rw [bytes, List.length_append, pairsLen, head.len, tail.len]
      rfl
    · rw [bytes]
      exact head.put.bind tail.put

theorem mirrors_settings (fits : ∀ pair ∈ settings.pairs, Fits pair) :
    Mirrors (settingsLen settings) (putSettings settings) settings.pairs := by
  simp only [Settings.pairs, Settings.announced, List.forall_mem_append] at fits
  obtain ⟨maxFieldSectionSize, qpackMaxTableCapacity, qpackBlockedStreams, connectProtocol, h3Datagram00, h3Datagram,
    grease, additional⟩ := fits
  have one := mirrors_setting maxFieldSectionSize
  have two := mirrors_setting qpackMaxTableCapacity
  have three := mirrors_setting qpackBlockedStreams
  have four := mirrors_setting connectProtocol
  have five := mirrors_setting h3Datagram00
  have six := mirrors_setting h3Datagram
  have seven := mirrors_pairs grease
  have eight := mirrors_pairs additional
  simp only [Settings.pairs, Settings.announced]
  constructor
  · rw [settingsLen, one.len, two.len, three.len, four.len, five.len, six.len, seven.len, eight.len]
    simp only [pairsBytes_append, List.length_append, Option.bind_eq_bind, Option.bind_some, Option.pure_def,
      Option.some.injEq]
    omega
  · simp only [pairsBytes_append]
    apply one.put.bind
    apply two.put.bind
    apply three.put.bind
    apply four.put.bind
    apply five.put.bind
    apply six.put.bind
    exact seven.put.bind eight.put

end Wire

section Unfit

variable {pairs : List (Nat × Nat)} {identifier : Nat} {val : Option Nat} {settings : Settings} {len : Nat}

theorem settingLen_fits (known : settingLen identifier val = some len) : ∀ pair ∈ optional identifier val, Fits pair := by
  cases val with
  | none => simp [optional]
  | some val =>
    obtain ⟨_, identifierLen, rest⟩ := Option.bind_eq_some_iff.mp known
    obtain ⟨_, valLen, _⟩ := Option.bind_eq_some_iff.mp rest
    intro pair member
    cases List.mem_singleton.mp member
    exact ⟨(varintLen_spec identifierLen).1, (varintLen_spec valLen).1⟩

theorem pairsLen_fits (known : pairsLen pairs = some len) : ∀ pair ∈ pairs, Fits pair := by
  induction pairs generalizing len with
  | nil => simp
  | cons pair rest ih =>
    obtain ⟨_, headLen, tail⟩ := Option.bind_eq_some_iff.mp known
    obtain ⟨_, tailLen, _⟩ := Option.bind_eq_some_iff.mp tail
    exact List.forall_mem_cons.mpr ⟨settingLen_fits headLen pair (List.mem_singleton_self _), ih tailLen⟩

theorem settingsLen_fits (known : settingsLen settings = some len) : ∀ pair ∈ settings.pairs, Fits pair := by
  obtain ⟨_, one, known⟩ := Option.bind_eq_some_iff.mp known
  obtain ⟨_, two, known⟩ := Option.bind_eq_some_iff.mp known
  obtain ⟨_, three, known⟩ := Option.bind_eq_some_iff.mp known
  obtain ⟨_, four, known⟩ := Option.bind_eq_some_iff.mp known
  obtain ⟨_, five, known⟩ := Option.bind_eq_some_iff.mp known
  obtain ⟨_, six, known⟩ := Option.bind_eq_some_iff.mp known
  obtain ⟨_, seven, known⟩ := Option.bind_eq_some_iff.mp known
  obtain ⟨_, eight, _⟩ := Option.bind_eq_some_iff.mp known
  simp only [Settings.pairs, Settings.announced, List.forall_mem_append]
  exact ⟨settingLen_fits one, settingLen_fits two, settingLen_fits three, settingLen_fits four, settingLen_fits five,
    settingLen_fits six, pairsLen_fits seven, pairsLen_fits eight⟩

theorem fails_putSettingsFrame
    (unfit : ¬ ((∀ pair ∈ settings.pairs, Fits pair) ∧ (pairsBytes settings.pairs).length < 2 ^ 62)) :
    Fails (putSettingsFrame settings) := by
  rw [putSettingsFrame]
  cases known : settingsLen settings with
  | none => exact fails_throw _
  | some len =>
    have fits := settingsLen_fits known
    have same := (mirrors_settings fits).len
    rw [known, Option.some.injEq] at same
    have long : varintLen len = none := by
      rw [← Option.not_isSome_iff_eq_none]
      intro present
      obtain ⟨width, widthLen⟩ := Option.isSome_iff_exists.mp present
      exact unfit ⟨fits, same ▸ (varintLen_spec widthLen).1⟩
    apply Fails.after
    intro _
    rw [putVarint, long]
    exact (fails_throw _).bind _

end Unfit

section Encode

variable {frame : Frame}

def typeId : Frame → Nat
  | .data _ => dataFrameTypeId
  | .headers _ => headersFrameTypeId
  | .cancelPush _ => cancelPushFrameTypeId
  | .settings _ => settingsFrameTypeId
  | .pushPromise _ _ => pushPromiseFrameTypeId
  | .goAway _ => goawayFrameTypeId
  | .maxPushId _ => maxPushFrameTypeId
  | .priorityUpdateRequest _ _ => priorityUpdateFrameRequestTypeId
  | .priorityUpdatePush _ _ => priorityUpdateFramePushTypeId
  | .unknown rawType _ => rawType

def payload : Frame → List UInt8
  | .data payload | .headers payload | .unknown _ payload => payload
  | .cancelPush id | .goAway id | .maxPushId id => varint id
  | .settings fields => pairsBytes fields.pairs
  | .pushPromise id rest | .priorityUpdateRequest id rest | .priorityUpdatePush id rest => varint id ++ rest

/-- The integers of the frame fit into varints. -/
def Integers : Frame → Prop
  | .data _ | .headers _ => True
  | .cancelPush id | .goAway id | .maxPushId id => id < 2 ^ 62
  | .settings fields => ∀ pair ∈ fields.pairs, Fits pair
  | .pushPromise id _ | .priorityUpdateRequest id _ | .priorityUpdatePush id _ => id < 2 ^ 62
  | .unknown rawType _ => rawType < 2 ^ 62

def wire (frame : Frame) : List UInt8 := varint frame.typeId ++ (varint frame.payload.length ++ frame.payload)

variable {frameType id : Nat}

theorem appends_putPayload {payload : List UInt8} (known : frameType < 2 ^ 62) (bound : payload.length < 2 ^ 62) :
    Appends (putPayload frameType payload) (varint frameType ++ (varint payload.length ++ payload)) () :=
  (appends_putVarint known).bind ((appends_putVarint bound).bind (appends_putBytes payload))

theorem varint_length_lt (bound : id < 2 ^ 62) : (varint id).length < 2 ^ 62 := by
  obtain ⟨len, tag, _, bytes, kind, _⟩ := varint_exists bound
  rw [bytes, varintBytes_length]
  cases kind <;> decide

theorem appends_putId (known : frameType < 2 ^ 62) (bound : id < 2 ^ 62) :
    Appends (putId frameType id) (varint frameType ++ (varint (varint id).length ++ varint id)) () := by
  rw [putId, varintLen_varint bound]
  exact (appends_putVarint known).bind ((appends_putVarint (varint_length_lt bound)).bind (appends_putVarint bound))

theorem appends_putIdAndRest {rest : List UInt8} (known : frameType < 2 ^ 62) (bound : id < 2 ^ 62)
    (short : (varint id ++ rest).length < 2 ^ 62) : Appends (putIdAndRest frameType id rest)
      (varint frameType ++ (varint (varint id ++ rest).length ++ (varint id ++ rest))) () := by
  rw [putIdAndRest, varintLen_varint bound]
  rw [List.length_append] at short ⊢
  apply (appends_putVarint known).bind
  apply (appends_putVarint short).bind
  exact (appends_putVarint bound).bind (appends_putBytes rest)

theorem appends_put (integers : frame.Integers) (short : frame.payload.length < 2 ^ 62) :
    Appends frame.put frame.wire () := by
  cases frame with
  | data payload => exact appends_putPayload (by decide) short
  | headers payload => exact appends_putPayload (by decide) short
  | cancelPush id => exact appends_putId (by decide) integers
  | settings fields =>
    have mirrors := mirrors_settings integers
    rw [put, putSettingsFrame, mirrors.len]
    exact (appends_putVarint (by decide)).bind ((appends_putVarint short).bind mirrors.put)
  | pushPromise id rest => exact appends_putIdAndRest (by decide) integers short
  | goAway id => exact appends_putId (by decide) integers
  | maxPushId id => exact appends_putId (by decide) integers
  | priorityUpdateRequest id rest => exact appends_putIdAndRest (by decide) integers short
  | priorityUpdatePush id rest => exact appends_putIdAndRest (by decide) integers short
  | unknown rawType payload => exact appends_putPayload integers short

theorem emits_toBytes (integers : frame.Integers) (short : frame.payload.length < 2 ^ 62) :
    Emits tape (Failure.error .bufferTooShort) frame.toBytes frame.wire frame.wire.length := by
  have emits := (appends_put integers short).adaptExcept ofFault
  have written : ∀ state : Octets, frame.wire.length ≤ state.cap →
      frame.toBytes state = .ok frame.wire.length (state.append frame.wire) := by
    intro state fits
    have put : octets frame.put state = .ok () (state.append frame.wire) := emits.writes state fits
    have left := append_cap fits
    have count : state.cap - (state.append frame.wire).cap = frame.wire.length := by omega
    rw [← count]
    exact bind_ok put _
  constructor
  · exact written
  · constructor
    · exact fun state fits => ⟨_, rfl, written state fits⟩
    · intro state less
      obtain ⟨after, failed⟩ := emits.spends.short state less
      exact ⟨after, bind_error failed _⟩

end Encode

section Received

variable {settings parsed updated : Settings} {pairs announced : List (Nat × Nat)} {identifier value : Nat}

def knownSettings : List Nat :=
  [settingsQpackMaxTableCapacity, settingsMaxFieldSectionSize, settingsQpackBlockedStreams,
    settingsEnableConnectProtocol, settingsH3Datagram00, settingsH3Datagram]

/-- The identifiers of HTTP/2 that were taken over from. -/
def reservedSettings : List Nat := [0x0, 0x2, 0x3, 0x4, 0x5]

/-- The settings are some that the parser takes. -/
structure Acceptable (settings : Settings) : Prop where
  unreserved : ∀ pair ∈ settings.announced, pair.1 ∉ reservedSettings
  connectProtocol : ∀ val ∈ settings.connectProtocolEnabled, val ≤ 1
  h3Datagram : ∀ val ∈ settings.h3Datagram, val ≤ 1
  size : (pairsBytes settings.pairs).length ≤ maxSettingsPayloadSize

theorem addSettings_append (parsed : Settings) (first second : List (Nat × Nat)) :
    addSettings parsed (first ++ second) = (addSettings parsed first).bind fun middle => addSettings middle second := by
  induction first generalizing parsed with
  | nil => rfl
  | cons pair rest ih =>
    rw [List.cons_append, addSettings, addSettings]
    cases added : addSetting parsed pair.1 pair.2 with
    | error error => rfl
    | ok updated => exact ih updated

theorem addSetting_reserved (reserved : identifier ∈ reservedSettings) :
    addSetting parsed identifier value = .error .settingsError := by
  simp only [reservedSettings, List.mem_cons, List.not_mem_nil, or_false] at reserved
  rcases reserved with rfl | rfl | rfl | rfl | rfl <;> rfl

theorem addSetting_unknown (unknown : identifier ∉ knownSettings) (unreserved : identifier ∉ reservedSettings) :
    addSetting parsed identifier value = .ok { parsed with
      additionalSettings := some (parsed.additionalSettings.getD [] ++ [(identifier, value)]) } := by
  simp only [knownSettings, List.mem_cons, List.not_mem_nil, or_false, not_or] at unknown
  obtain ⟨capacity, size, blocked, connect, datagram00, datagram⟩ := unknown
  simp only [addSetting, if_neg capacity, if_neg size, if_neg blocked, if_neg connect,
    if_neg (not_or.mpr ⟨datagram00, datagram⟩)]
  exact if_neg unreserved

theorem addSettings_unknown (unknown : ∀ pair ∈ announced, pair.1 ∉ knownSettings)
    (unreserved : ∀ pair ∈ announced, pair.1 ∉ reservedSettings) : addSettings parsed announced = .ok { parsed with
      additionalSettings := if announced = [] then parsed.additionalSettings
        else some (parsed.additionalSettings.getD [] ++ announced) } := by
  induction announced generalizing parsed with
  | nil => rfl
  | cons pair rest ih =>
    simp only [List.forall_mem_cons] at unknown unreserved
    rw [addSettings, addSetting_unknown unknown.1 unreserved.1]
    refine (ih unknown.2 unreserved.2).trans ?_
    cases rest with
    | nil => rfl
    | cons next others => simp

theorem addSettings_optional {val : Option Nat} (taken : ∀ v ∈ val, addSetting parsed identifier v = .ok updated)
    (absent : val = .none → parsed = updated) : addSettings parsed (optional identifier val) = .ok updated := by
  cases val with
  | none => rw [← absent rfl]; rfl
  | some v =>
    have added := taken v rfl
    show addSettings parsed [(identifier, v)] = _
    rw [addSettings, added]
    rfl

theorem flag_taken {flag : Option Nat} {next : Settings} (bound : ∀ val ∈ flag, val ≤ 1) {v : Nat} (held : v ∈ flag) :
    (if v > 1 then .error .settingsError else .ok next : Except Error Settings) = .ok next :=
  if_neg (Nat.not_lt.mpr (bound v held))

theorem addSettings_unreserved (added : addSettings parsed pairs = .ok updated) :
    ∀ pair ∈ pairs, pair.1 ∉ reservedSettings := by
  induction pairs generalizing parsed with
  | nil => simp
  | cons pair rest ih =>
    rw [addSettings] at added
    cases head : addSetting parsed pair.1 pair.2 with
    | error error =>
      rw [head] at added
      cases added
    | ok middle =>
      rw [head] at added
      refine List.forall_mem_cons.mpr ⟨fun reserved => ?_, ih added⟩
      rw [addSetting_reserved reserved] at head
      cases head

theorem addSettings_pairs (acceptable : Acceptable settings)
    (unknown : ∀ pair ∈ settings.announced, pair.1 ∉ knownSettings) :
    addSettings .none settings.pairs = .ok { settings.received with raw := .none } := by
  obtain ⟨unreserved, connectBound, datagramBound, _⟩ := acceptable
  obtain ⟨size, capacity, blocked, connect, datagram, grease, additional, raw⟩ := settings
  have first : addSettings .none (optional settingsMaxFieldSectionSize size) =
      .ok ⟨size, .none, .none, .none, .none, .none, .none, .none⟩ := by
    apply addSettings_optional
    · rintro v rfl; rfl
    · rintro rfl; rfl
  have second : addSettings ⟨size, .none, .none, .none, .none, .none, .none, .none⟩
      (optional settingsQpackMaxTableCapacity capacity) =
      .ok ⟨size, capacity, .none, .none, .none, .none, .none, .none⟩ := by
    apply addSettings_optional
    · rintro v rfl; rfl
    · rintro rfl; rfl
  have third : addSettings ⟨size, capacity, .none, .none, .none, .none, .none, .none⟩
      (optional settingsQpackBlockedStreams blocked) =
      .ok ⟨size, capacity, blocked, .none, .none, .none, .none, .none⟩ := by
    apply addSettings_optional
    · rintro v rfl; rfl
    · rintro rfl; rfl
  have fourth : addSettings ⟨size, capacity, blocked, .none, .none, .none, .none, .none⟩
      (optional settingsEnableConnectProtocol connect) =
      .ok ⟨size, capacity, blocked, connect, .none, .none, .none, .none⟩ := by
    apply addSettings_optional
    · rintro v rfl; exact flag_taken connectBound rfl
    · rintro rfl; rfl
  have fifth : addSettings ⟨size, capacity, blocked, connect, .none, .none, .none, .none⟩
      (optional settingsH3Datagram00 datagram) =
      .ok ⟨size, capacity, blocked, connect, datagram, .none, .none, .none⟩ := by
    apply addSettings_optional
    · rintro v rfl; exact flag_taken datagramBound rfl
    · rintro rfl; rfl
  have sixth : addSettings ⟨size, capacity, blocked, connect, datagram, .none, .none, .none⟩
      (optional settingsH3Datagram datagram) =
      .ok ⟨size, capacity, blocked, connect, datagram, .none, .none, .none⟩ := by
    apply addSettings_optional
    · rintro v rfl; exact flag_taken datagramBound rfl
    · intro _; rfl
  simp only [Settings.pairs, addSettings_append, first, second, third, fourth, fifth, sixth, Except.bind]
  exact addSettings_unknown unknown unreserved

theorem flag_eq_ok {next : Settings}
    (taken : (if value > 1 then .error .settingsError else .ok next : Except Error Settings) = .ok updated) :
    updated = next := by
  split at taken
  · cases taken
  · cases taken
    rfl

theorem addSetting_known (known : identifier ∈ knownSettings) (added : addSetting parsed identifier value = .ok updated) :
    updated.additionalSettings = parsed.additionalSettings := by
  simp only [knownSettings, List.mem_cons, List.not_mem_nil, or_false] at known
  rcases known with rfl | rfl | rfl | rfl | rfl | rfl
  · cases added; rfl
  · cases added; rfl
  · cases added; rfl
  · rw [flag_eq_ok added]
  · rw [flag_eq_ok added]
  · rw [flag_eq_ok added]

theorem addSetting_additional (added : addSetting parsed identifier value = .ok updated) :
    updated.additionalSettings.getD [] =
      parsed.additionalSettings.getD [] ++ [(identifier, value)].filter fun pair => pair.1 ∉ knownSettings := by
  by_cases known : identifier ∈ knownSettings
  · rw [addSetting_known known added, List.filter_singleton]
    simp [known]
  · by_cases reserved : identifier ∈ reservedSettings
    · rw [addSetting_reserved reserved] at added
      cases added
    · rw [addSetting_unknown known reserved] at added
      cases added
      simp [known]

theorem addSettings_additional (added : addSettings parsed pairs = .ok updated) : updated.additionalSettings.getD [] =
      parsed.additionalSettings.getD [] ++ pairs.filter fun pair => pair.1 ∉ knownSettings := by
  induction pairs generalizing parsed with
  | nil =>
    cases added
    exact (List.append_nil _).symm
  | cons pair rest ih =>
    rw [addSettings] at added
    cases head : addSetting parsed pair.1 pair.2 with
    | error error =>
      rw [head] at added
      cases added
    | ok middle =>
      rw [head] at added
      rw [ih added, addSetting_additional head, List.append_assoc, ← List.filter_append]
      rfl

end Received

section Exact

variable {frameType : Nat} {payload : List UInt8}

def received : Frame → Frame
  | .settings fields => .settings fields.received
  | frame => frame

/-- The frame is one that the parser takes. -/
def Accepted : Frame → Prop
  | .settings fields => Acceptable fields
  | _ => True

/-- The frame has no other name: its type and its identifiers are not those of known ones. -/
def OwnNames : Frame → Prop
  | .unknown rawType _ => rawType ∉ knownTypes
  | .settings fields => ∀ pair ∈ fields.announced, pair.1 ∉ knownSettings
  | _ => True

/-- What the fields of a payload say, in whatever widths their integers are. -/
inductive Says : Nat → List UInt8 → Except Failure Frame → Prop where
  | plain {frameType : Nat} {make : List UInt8 → Frame} (shape : PlainType frameType make) (payload : List UInt8) :
      Says frameType payload (.ok (make payload))
  | id {frameType id : Nat} {make : Nat → Frame} {bytes : List UInt8} (shape : IdType frameType make)
      (spelled : Spells bytes id) : Says frameType bytes (.ok (make id))
  | rest {frameType id : Nat} {make : Nat → List UInt8 → Frame} {bytes : List UInt8} (shape : RestType frameType make)
      (spelled : Spells bytes id) (rest : List UInt8) : Says frameType (bytes ++ rest) (.ok (make id rest))
  | settings {bytes : List UInt8} {pairs : List (Nat × Nat)} (spelled : SpellsPairs bytes pairs)
      (short : bytes.length ≤ maxSettingsPayloadSize) : Says settingsFrameTypeId bytes (settingsOf pairs)

/-- Something is left of the payload behind its last field. -/
inductive LeftOver : Nat → List UInt8 → Prop where
  | id {frameType id : Nat} {make : Nat → Frame} {bytes extra : List UInt8} (shape : IdType frameType make)
      (spelled : Spells bytes id) (more : extra ≠ []) : LeftOver frameType (bytes ++ extra)
  | settings {bytes extra : List UInt8} {pairs : List (Nat × Nat)} (spelled : SpellsPairs bytes pairs)
      (cut : Cut extra) (more : extra ≠ []) : LeftOver settingsFrameTypeId (bytes ++ extra)

/-- `from_bytes` gives what the payload says, and an error when bytes are left over. -/
structure Exact (frameType : Nat) (payload : List UInt8) : Prop where
  safe : fromBytes frameType payload.length payload ≠ .error .panic
  fields : ∀ result, Says frameType payload result → fromBytes frameType payload.length payload = result
  nothingLeft : LeftOver frameType payload → ∃ error, fromBytes frameType payload.length payload = .error (.error error)

/-- The identifier in front of other fields is written in the least width, and one that is the whole payload has
nothing behind it. -/
structure Canonical (frameType : Nat) (payload : List UInt8) : Prop where
  least : ∀ make bytes rest id, RestType frameType make → payload = bytes ++ rest → Spells bytes id →
    bytes.length = (varint id).length
  alone : ∀ make bytes extra id, IdType frameType make → payload = bytes ++ extra → Spells bytes id → extra = []

theorem cut_nil : Cut [] := by
  intro first second tail identifier value head val empty
  have positive := head.length_pos
  rw [(List.append_eq_nil_iff.mp empty.symm).1] at positive
  exact absurd positive (Nat.lt_irrefl 0)

theorem fromBytes_pairs {bytes : List UInt8} {pairs : List (Nat × Nat)} (spelled : SpellsPairs bytes pairs)
    (short : bytes.length ≤ maxSettingsPayloadSize) :
    fromBytes settingsFrameTypeId bytes.length bytes = settingsOf pairs := by
  have parsed := fromBytes_settings spelled cut_nil
  rwa [List.append_nil, if_neg (Nat.not_lt.mpr short), if_pos rfl] at parsed

theorem settingsOf_ne_panic (pairs : List (Nat × Nat)) : settingsOf pairs ≠ .error .panic := by
  rw [settingsOf]
  cases addSettings .none pairs with
  | ok parsed => simp
  | error error => simp

theorem fromBytes_safe (frameType : Nat) (payload : List UInt8) :
    fromBytes frameType payload.length payload ≠ .error .panic := by
  rcases shape_exists frameType with ⟨make, shape⟩ | ⟨make, shape⟩ | ⟨make, shape⟩ | rfl
  · simp [fromBytes_plain shape]
  · rcases fromBytes_id_cases shape payload.length payload with short | ⟨bytes, extra, id, rfl, spelled⟩
    · simp [short]
    · simp [fromBytes_id shape _ spelled]
  · rcases fromBytes_rest_cases shape payload.length payload with short | ⟨bytes, rest, id, rfl, spelled⟩
    · simp [short]
    · rw [fromBytes_rest shape spelled]
      split <;> simp
  · obtain ⟨bytes, pairs, extra, rfl, spelled, cut⟩ := pairs_exist payload
    rw [fromBytes_settings spelled cut]
    split
    · simp
    · split
      · exact settingsOf_ne_panic pairs
      · simp

theorem exact_iff_canonical (frameType : Nat) (payload : List UInt8) :
    Exact frameType payload ↔ Canonical frameType payload := by
  constructor
  · intro exact_
    constructor
    · rintro make bytes rest id shape rfl spelled
      have read := exact_.fields _ (.rest shape spelled rest)
      rw [fromBytes_rest shape spelled] at read
      by_contra wider
      rw [if_neg wider] at read
      cases read
    · rintro make bytes extra id shape rfl spelled
      by_contra more
      obtain ⟨error, refused⟩ := exact_.nothingLeft (.id shape spelled more)
      rw [fromBytes_id shape _ spelled] at refused
      cases refused
  · intro canonical
    constructor
    · exact fromBytes_safe frameType payload
    · intro result told
      cases told with
      | plain shape => exact fromBytes_plain shape payload
      | id shape spelled =>
        have read := fromBytes_id shape payload.length spelled []
        rwa [List.append_nil] at read
      | rest shape spelled rest =>
        rw [fromBytes_rest shape spelled, if_pos (canonical.least _ _ _ _ shape rfl spelled)]
      | settings spelled short => exact fromBytes_pairs spelled short
    · intro leftOver
      cases leftOver with
      | id shape spelled more => exact absurd (canonical.alone _ _ _ _ shape rfl spelled) more
      | settings spelled cut more =>
        rw [fromBytes_settings spelled cut, if_neg more]
        split
        · exact ⟨_, rfl⟩
        · exact ⟨_, rfl⟩

theorem fromBytes_unknown {rawType : Nat} {bytes : List UInt8}
    (read : fromBytes frameType payload.length payload = .ok (.unknown rawType bytes)) : frameType ∉ knownTypes := by
  rcases shape_exists frameType with ⟨make, shape⟩ | ⟨make, shape⟩ | ⟨make, shape⟩ | rfl
  · rw [fromBytes_plain shape] at read
    cases shape with
    | data => cases read
    | headers => cases read
    | unknown unknown => exact unknown
  · rcases fromBytes_id_cases shape payload.length payload with short | ⟨bytes, extra, id, rfl, spelled⟩
    · rw [short] at read
      cases read
    · rw [fromBytes_id shape _ spelled] at read
      cases shape <;> cases read
  · rcases fromBytes_rest_cases shape payload.length payload with short | ⟨bytes, rest, id, rfl, spelled⟩
    · rw [short] at read
      cases read
    · rw [fromBytes_rest shape spelled] at read
      split at read
      · cases shape <;> cases read
      · cases read
  · obtain ⟨bytes, pairs, extra, rfl, spelled, cut⟩ := pairs_exist payload
    rw [fromBytes_settings spelled cut, settingsOf] at read
    split at read
    · cases read
    · split at read
      · split at read <;> cases read
      · cases read

theorem settingsOf_received {settings : Settings} (acceptable : Acceptable settings) :
    settingsOf settings.pairs = .ok (.settings settings.received) ↔
      ∀ pair ∈ settings.announced, pair.1 ∉ knownSettings := by
  rw [settingsOf]
  constructor
  · intro same
    cases added : addSettings .none settings.pairs with
    | error error =>
      rw [added] at same
      cases same
    | ok parsed =>
      rw [added] at same
      injection same with same
      injection same with same
      have kept := addSettings_additional added
      have listed : parsed.additionalSettings = settings.received.additionalSettings := by rw [← same]
      have own : settings.received.additionalSettings.getD [] = settings.announced := by
        show (if settings.announced = [] then .none else some settings.announced : Option _).getD [] = _
        split
        · rename_i empty
          exact empty.symm
        · rfl
      have known : ∀ identifier val, identifier ∈ knownSettings →
          (optional identifier val).filter (fun pair => pair.1 ∉ knownSettings) = [] := by
        intro identifier val member
        cases val with
        | none => rfl
        | some v => simp [optional, member]
      rw [listed, own, Settings.pairs] at kept
      simp only [List.filter_append] at kept
      rw [known _ _ (by decide), known _ _ (by decide), known _ _ (by decide), known _ _ (by decide),
        known _ _ (by decide), known _ _ (by decide)] at kept
      intro pair member
      rw [show settings.announced = settings.announced.filter fun pair => pair.1 ∉ knownSettings from kept] at member
      have unknown := (List.mem_filter.mp member).2
      exact of_decide_eq_true unknown
  · intro unknown
    rw [addSettings_pairs acceptable unknown]
    rfl

theorem decoded_iff {frame : Frame} (integers : frame.Integers) (accepted : frame.Accepted) :
    fromBytes frame.typeId frame.payload.length frame.payload = .ok frame.received ↔ frame.OwnNames := by
  have id : ∀ {frameType make id}, IdType frameType make → id < 2 ^ 62 →
      fromBytes frameType (varint id).length (varint id) = .ok (make id) := by
    intro frameType make id shape bound
    have read := fromBytes_id shape (varint id).length (spells_varint bound) []
    rwa [List.append_nil] at read
  have rest : ∀ {frameType make id} {rest : List UInt8}, RestType frameType make → id < 2 ^ 62 →
      fromBytes frameType (varint id ++ rest).length (varint id ++ rest) = .ok (make id rest) := by
    intro frameType make id rest shape bound
    rw [fromBytes_rest shape (spells_varint bound), if_pos rfl]
  cases frame with
  | data payload => exact iff_of_true (fromBytes_plain .data payload) trivial
  | headers payload => exact iff_of_true (fromBytes_plain .headers payload) trivial
  | cancelPush pushId => exact iff_of_true (id .cancelPush integers) trivial
  | settings fields =>
    show fromBytes settingsFrameTypeId (pairsBytes fields.pairs).length (pairsBytes fields.pairs) =
      .ok (.settings fields.received) ↔ _
    rw [fromBytes_pairs (spells_pairsBytes integers) accepted.size]
    exact settingsOf_received accepted
  | pushPromise pushId block => exact iff_of_true (rest .pushPromise integers) trivial
  | goAway streamId => exact iff_of_true (id .goAway integers) trivial
  | maxPushId pushId => exact iff_of_true (id .maxPushId integers) trivial
  | priorityUpdateRequest element value => exact iff_of_true (rest .priorityUpdateRequest integers) trivial
  | priorityUpdatePush element value => exact iff_of_true (rest .priorityUpdatePush integers) trivial
  | unknown rawType payload =>
    constructor
    · exact fromBytes_unknown
    · exact fun unknown => fromBytes_plain (.unknown unknown) payload

end Exact

theorem frame_codec_exact_iff (frame : Frame) (frameType : Nat) (payload : List UInt8) :
    (frame.Integers → frame.Accepted → frame.payload.length < 2 ^ 62 →
      Emits tape (Failure.error .bufferTooShort) frame.toBytes
        (varint frame.typeId ++ (varint frame.payload.length ++ frame.payload))
        (varint frame.typeId ++ (varint frame.payload.length ++ frame.payload)).length ∧
      (fromBytes frame.typeId frame.payload.length frame.payload = .ok frame.received ↔ frame.OwnNames)) ∧
    (Exact frameType payload ↔ Canonical frameType payload) :=
  ⟨fun integers accepted short => ⟨emits_toBytes integers short, decoded_iff integers accepted⟩,
    exact_iff_canonical frameType payload⟩

def greasedSettings : Settings := ⟨some 1024, none, none, some 1, some 1, some (33, 33), some [(100, 7)], none⟩

theorem frame_codec_exact_iff_greased :
    fromBytes settingsFrameTypeId (pairsBytes greasedSettings.pairs).length (pairsBytes greasedSettings.pairs) =
      .ok (.settings greasedSettings.received) := by
  have integers : (Frame.settings greasedSettings).Integers := by
    simp [Integers, Fits, Settings.pairs, Settings.announced, optional, greasedSettings, settingsMaxFieldSectionSize,
      settingsEnableConnectProtocol, settingsH3Datagram, settingsH3Datagram00]
  have accepted : (Frame.settings greasedSettings).Accepted := ⟨by decide, by decide, by decide, by decide⟩
  exact ((frame_codec_exact_iff (.settings greasedSettings) 0 []).1 integers accepted (by decide)).2.mpr
    (by simp only [OwnNames]; decide)

def widePromise : List UInt8 := [0x40, 0x00, 0x07]

theorem wide_promise_refused : fromBytes pushPromiseFrameTypeId 2 [0x00, 0x07] = .ok (.pushPromise 0 [0x07]) ∧
      fromBytes pushPromiseFrameTypeId 3 widePromise = .error (.error .bufferTooShort) ∧
      ¬ Exact pushPromiseFrameTypeId widePromise ∧
      fromBytes goawayFrameTypeId 2 [0x00, 0x00] = .ok (.goAway 0) ∧ ¬ Exact goawayFrameTypeId [0x00, 0x00] := by
  have wide : Spells [0x40, 0x00] 0 := ⟨2, 1, .two, by simp [FitsVarint], rfl⟩
  have narrow : Spells [0x00] 0 := ⟨1, 0, .one, by simp [FitsVarint], rfl⟩
  refine ⟨rfl, rfl, ?_, rfl, ?_⟩
  · intro exact_
    have read := exact_.fields _ (.rest .pushPromise wide [0x07])
    cases read
  · intro exact_
    have more : LeftOver goawayFrameTypeId ([0x00] ++ [0x00]) := .id .goAway narrow (by decide)
    obtain ⟨error, refused⟩ := exact_.nothingLeft more
    cases refused

end Frame

end Quiche.H3
