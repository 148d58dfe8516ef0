import Quiche.H3

namespace Quiche.H3

def settingsQpackMaxTableCapacity : Nat := 0x1
def settingsMaxFieldSectionSize : Nat := 0x6
def settingsQpackBlockedStreams : Nat := 0x7
def settingsEnableConnectProtocol : Nat := 0x8
def settingsH3Datagram00 : Nat := 0x276
def settingsH3Datagram : Nat := 0x33

def maxSettingsPayloadSize : Nat := 256

structure Settings where
  maxFieldSectionSize : Option Nat
  qpackMaxTableCapacity : Option Nat
  qpackBlockedStreams : Option Nat
  connectProtocolEnabled : Option Nat
  h3Datagram : Option Nat
  grease : Option (Nat × Nat)
  additionalSettings : Option (List (Nat × Nat))
  raw : Option (List (Nat × Nat))
deriving DecidableEq, Repr

def Settings.none : Settings := ⟨.none, .none, .none, .none, .none, .none, .none, .none⟩

inductive Frame where
  | data (payload : List UInt8)
  | headers (headerBlock : List UInt8)
  | cancelPush (pushId : Nat)
  | settings (settings : Settings)
  | pushPromise (pushId : Nat) (headerBlock : List UInt8)
  | goAway (id : Nat)
  | maxPushId (pushId : Nat)
  | priorityUpdateRequest (prioritizedElementId : Nat) (priorityFieldValue : List UInt8)
  | priorityUpdatePush (prioritizedElementId : Nat) (priorityFieldValue : List UInt8)
  | unknown (rawType : Nat) (payload : List UInt8)
deriving DecidableEq, Repr

namespace Frame

abbrev Parser := EStateM Failure Octets

variable {Value : Type}

/-- The only error of `Octets` is a buffer that is too short. -/
def ofFault : Fault → Failure
  | .error _ => .error .bufferTooShort
  | .panic => .panic

abbrev octets (action : Octets.Action Value) : Parser Value := action.adaptExcept ofFault

def fail (error : Error) : Parser Value := throw (.error error)

def addSetting (settings : Settings) (identifier value : Nat) : Except Error Settings :=
  if identifier = settingsQpackMaxTableCapacity then .ok { settings with qpackMaxTableCapacity := some value }
  else if identifier = settingsMaxFieldSectionSize then .ok { settings with maxFieldSectionSize := some value }
  else if identifier = settingsQpackBlockedStreams then .ok { settings with qpackBlockedStreams := some value }
  else if identifier = settingsEnableConnectProtocol then
    if value > 1 then .error .settingsError
    else .ok { settings with connectProtocolEnabled := some value }
  else if identifier = settingsH3Datagram00 ∨ identifier = settingsH3Datagram then
    if value > 1 then .error .settingsError
    else .ok { settings with h3Datagram := some value }
  -- Reserved values overlap with HTTP/2 and MUST be rejected.
  else if identifier ∈ [0x0, 0x2, 0x3, 0x4, 0x5] then .error .settingsError
  -- Unknown Settings parameters go into additional_settings.
  else .ok { settings with
    additionalSettings := some (settings.additionalSettings.getD [] ++ [(identifier, value)]) }

/-- The `while` loop of `parse_settings_frame`; every turn moves the offset, so the length of
the payload bounds the turns. -/
def parseSettings : Nat → Nat → Settings → List (Nat × Nat) → Parser Settings
  | 0, _, _, _ => throw .panic
  | fuel + 1, settingsLength, parsed, raw => do
    if (← get).off < settingsLength then do
      let identifier ← octets Octets.getVarint
      let value ← octets Octets.getVarint
      match addSetting parsed identifier value with
      | .error error => fail error
      | .ok updated => parseSettings fuel settingsLength updated (raw ++ [(identifier, value)])
    else pure { parsed with raw := some raw }

def parseSettingsFrame (settingsLength : Nat) : Parser Frame :=
  -- Reject SETTINGS frames that are too long.
  if settingsLength > maxSettingsPayloadSize then fail .excessiveLoad
  else do
    let parsed ← parseSettings (settingsLength + 1) settingsLength .none []
    return .settings parsed

/-- An identifier, with the rest of the payload behind it. `none` is the underflow of the
payload's length. -/
def parseIdAndRest (payloadLength : Nat) : Parser (Nat × List UInt8) := do
  let id ← octets Octets.getVarint
  match (varintLen id).bind (subChecked payloadLength) with
  | none => throw .panic
  | some rest =>
    let bytes ← octets (Octets.getBytes rest)
    return (id, bytes)

def parse (frameType payloadLength : Nat) : Parser Frame :=
  if frameType = dataFrameTypeId then .data <$> octets (Octets.getBytes payloadLength)
  else if frameType = headersFrameTypeId then .headers <$> octets (Octets.getBytes payloadLength)
  else if frameType = cancelPushFrameTypeId then .cancelPush <$> octets Octets.getVarint
  else if frameType = settingsFrameTypeId then parseSettingsFrame payloadLength
  else if frameType = pushPromiseFrameTypeId then (fun (id, rest) =>
    .pushPromise id rest) <$> parseIdAndRest payloadLength
  else if frameType = goawayFrameTypeId then .goAway <$> octets Octets.getVarint
  else if frameType = maxPushFrameTypeId then .maxPushId <$> octets Octets.getVarint
  else if frameType = priorityUpdateFrameRequestTypeId then
    (fun (id, rest) => .priorityUpdateRequest id rest) <$> parseIdAndRest payloadLength
  else if frameType = priorityUpdateFramePushTypeId then
    (fun (id, rest) => .priorityUpdatePush id rest) <$> parseIdAndRest payloadLength
  else .unknown frameType <$> octets (Octets.getBytes payloadLength)

def fromBytes (frameType payloadLength : Nat) (bytes : List UInt8) : Except Failure Frame :=
  match parse frameType payloadLength (.withSlice bytes) with
  | .ok frame _ => .ok frame
  | .error failure _ => .error failure

/-- What an optional setting adds to the length; `none` is the panic of `varint_len`. -/
def settingLen (identifier : Nat) : Option Nat → Option Nat
  | none => some 0
  | some val => do return (← varintLen identifier) + (← varintLen val)

def pairsLen : List (Nat × Nat) → Option Nat
  | [] => some 0
  | (identifier, val) :: rest => do return (← settingLen identifier (some val)) + (← pairsLen rest)

def settingsLen (settings : Settings) : Option Nat := do
  let maxFieldSectionSize ← settingLen settingsMaxFieldSectionSize settings.maxFieldSectionSize
  let qpackMaxTableCapacity ← settingLen settingsQpackMaxTableCapacity settings.qpackMaxTableCapacity
  let qpackBlockedStreams ← settingLen settingsQpackBlockedStreams settings.qpackBlockedStreams
  let connectProtocolEnabled ← settingLen settingsEnableConnectProtocol settings.connectProtocolEnabled
  let h3Datagram00 ← settingLen settingsH3Datagram00 settings.h3Datagram
  let h3Datagram ← settingLen settingsH3Datagram settings.h3Datagram
  let grease ← pairsLen settings.grease.toList
  let additional ← pairsLen (settings.additionalSettings.getD [])
  return maxFieldSectionSize + qpackMaxTableCapacity + qpackBlockedStreams + connectProtocolEnabled +
    h3Datagram00 + h3Datagram + grease + additional

/-- `put_varint` of a length that was computed. -/
def putLen : Option Nat → Octets.Action Unit
  | some len => Octets.putVarint len
  | none => throw .panic

def putSetting (identifier : Nat) : Option Nat → Octets.Action Unit
  | none => pure ()
  | some val => do
    Octets.putVarint identifier
    Octets.putVarint val

def putPairs : List (Nat × Nat) → Octets.Action Unit
  | [] => pure ()
  | (identifier, val) :: rest => do
    putSetting identifier (some val)
    putPairs rest

def putSettings (settings : Settings) : Octets.Action Unit := do
  putSetting settingsMaxFieldSectionSize settings.maxFieldSectionSize
  putSetting settingsQpackMaxTableCapacity settings.qpackMaxTableCapacity
  putSetting settingsQpackBlockedStreams settings.qpackBlockedStreams
  putSetting settingsEnableConnectProtocol settings.connectProtocolEnabled
  putSetting settingsH3Datagram00 settings.h3Datagram
  putSetting settingsH3Datagram settings.h3Datagram
  putPairs settings.grease.toList
  putPairs (settings.additionalSettings.getD [])

def putPayload (frameType : Nat) (payload : List UInt8) : Octets.Action Unit := do
  Octets.putVarint frameType
  Octets.putVarint payload.length
  Octets.putBytes payload

def putId (frameType id : Nat) : Octets.Action Unit := do
  Octets.putVarint frameType
  putLen (varintLen id)
  Octets.putVarint id

def putIdAndRest (frameType id : Nat) (rest : List UInt8) : Octets.Action Unit :=
  match varintLen id with
  | none => throw .panic
  | some idLen => do
    Octets.putVarint frameType
    Octets.putVarint (idLen + rest.length)
    Octets.putVarint id
    Octets.putBytes rest

def putSettingsFrame (settings : Settings) : Octets.Action Unit :=
  match settingsLen settings with
  | none => throw .panic
  | some len => do
    Octets.putVarint settingsFrameTypeId
    Octets.putVarint len
    putSettings settings

def put : Frame → Octets.Action Unit
  | .data payload => putPayload dataFrameTypeId payload
  | .headers headerBlock => putPayload headersFrameTypeId headerBlock
  | .cancelPush pushId => putId cancelPushFrameTypeId pushId
  | .settings fields => putSettingsFrame fields
  | .pushPromise pushId headerBlock => putIdAndRest pushPromiseFrameTypeId pushId headerBlock
  | .goAway id => putId goawayFrameTypeId id
  | .maxPushId pushId => putId maxPushFrameTypeId pushId
  | .priorityUpdateRequest id value => putIdAndRest priorityUpdateFrameRequestTypeId id value
  | .priorityUpdatePush id value => putIdAndRest priorityUpdateFramePushTypeId id value
  | .unknown rawType payload => putPayload rawType payload

def toBytes (frame : Frame) : Parser Nat := do
  let before := (← get).cap
  octets frame.put
  return before - (← get).cap

end Frame

end Quiche.H3
