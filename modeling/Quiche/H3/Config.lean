import Mathlib.Data.List.Dedup
import Quiche.H3.Frame.Codec
import Quiche.H3.Framed

namespace Quiche.H3

open Data

structure Config where
  maxFieldSectionSize : Option Nat
  qpackMaxTableCapacity : Option Nat
  qpackBlockedStreams : Option Nat
  connectProtocolEnabled : Option Nat
  additionalSettings : Option (List (Nat × Nat))
deriving DecidableEq, Repr

namespace Config

def new : Config := ⟨none, none, none, none, none⟩

def explicitQuicheSettings : List Nat :=
  [settingsQpackMaxTableCapacity, settingsMaxFieldSectionSize, settingsQpackBlockedStreams,
    settingsEnableConnectProtocol, settingsH3Datagram, settingsH3Datagram00]

def setAdditionalSettings (additionalSettings : List (Nat × Nat)) (config : Config) : Except Error Config :=
  let identifiers := additionalSettings.map Prod.fst
  if identifiers.dedup.length ≠ additionalSettings.length ∨
      ∃ identifier ∈ explicitQuicheSettings, identifier ∈ identifiers then .error .settingsError
  else .ok { config with additionalSettings := some additionalSettings }

inductive Setter where
  | setMaxFieldSectionSize (v : Nat)
  | setQpackMaxTableCapacity (v : Nat)
  | setQpackBlockedStreams (v : Nat)
  | enableExtendedConnect (enabled : Bool)
  | setAdditionalSettings (additionalSettings : List (Nat × Nat))
deriving DecidableEq, Repr

def apply (config : Config) : Setter → Except Error Config
  | .setMaxFieldSectionSize v => .ok { config with maxFieldSectionSize := some v }
  | .setQpackMaxTableCapacity v => .ok { config with qpackMaxTableCapacity := some v }
  | .setQpackBlockedStreams v => .ok { config with qpackBlockedStreams := some v }
  | .enableExtendedConnect enabled =>
    .ok { config with connectProtocolEnabled := if enabled then some 1 else none }
  | .setAdditionalSettings additionalSettings => config.setAdditionalSettings additionalSettings

/-- The setters, as far as they return `Ok`. -/
def machine : Machine Config Setter where
  step config setter := (config.apply setter).toOption

variable {config next : Config}

/-- What the setters of the configuration let through. -/
structure Checked (config : Config) : Prop where
  connectProtocol : ∀ val ∈ config.connectProtocolEnabled, val ≤ 1
  additional : ∀ pair ∈ config.additionalSettings.getD [], pair.1 ∉ Frame.knownSettings

theorem new_checked : new.Checked := ⟨by decide, by decide⟩

theorem setAdditionalSettings_unknown {additional : List (Nat × Nat)}
    (taken : config.setAdditionalSettings additional = .ok next) :
    next = { config with additionalSettings := some additional } ∧ ∀ pair ∈ additional, pair.1 ∉ Frame.knownSettings := by
  rw [setAdditionalSettings] at taken
  split at taken
  · cases taken
  · rename_i fresh
    cases taken
    refine ⟨rfl, fun pair member known => fresh (.inr ⟨pair.1, ?_, List.mem_map_of_mem member⟩)⟩
    revert known
    simp only [Frame.knownSettings, explicitQuicheSettings, List.mem_cons, List.not_mem_nil, or_false]
    tauto

theorem apply_checked (checked : config.Checked) {setter : Setter} (applied : config.apply setter = .ok next) :
    next.Checked := by
  cases setter with
  | setMaxFieldSectionSize v | setQpackMaxTableCapacity v | setQpackBlockedStreams v =>
    cases applied
    exact ⟨checked.connectProtocol, checked.additional⟩
  | enableExtendedConnect enabled =>
    cases applied
    refine ⟨?_, checked.additional⟩
    cases enabled <;> simp
  | setAdditionalSettings additional =>
    obtain ⟨rfl, unknown⟩ := setAdditionalSettings_unknown applied
    exact ⟨checked.connectProtocol, unknown⟩

theorem built_checked {setters : List Setter} (built : machine.run new setters = some config) : config.Checked := by
  refine machine.run_keeps ?_ new_checked built
  intro config setter next checked stepped
  simp only [machine, Except.toOption] at stepped
  split at stepped
  · rename_i applied
    cases stepped
    exact apply_checked checked applied
  · cases stepped

end Config

/-- An HTTP/3 connection that opens its control stream. The last field is not in the source:
the bytes that the transport took. -/
structure Opening where
  config : Config
  enableDgram : Bool
  grease : Bool
  nextUniStreamId : Nat
  controlStreamId : Option Nat
  outlet : Outlet
  accepted : List UInt8

namespace Opening

abbrev Call := EStateM Failure Opening

/-- `Connection::new`, on the transport of its next unidirectional stream. -/
def new (config : Config) (isServer enableDgram grease : Bool) (outlet : Outlet) : Opening where
  config := config
  enableDgram := enableDgram
  grease := grease
  nextUniStreamId := if isServer then 0x3 else 0x2
  controlStreamId := none
  outlet := outlet
  accepted := []

/-- `stream_priority`: the stream is created; the order of streams is not modelled. -/
def streamPriority : Call Unit := fun opening =>
  match opening.outlet.getOrCreateStream with
  | .ok send => .ok () { opening with outlet := { opening.outlet with send := some send } }
  | .error .done => .ok () opening
  | .error error => .error (.error (.ofTransport error)) opening

def streamSend (buf : List UInt8) (fin : Bool) : Call Nat := fun opening =>
  match opening.outlet.streamSend buf fin with
  | none => .error .panic opening
  | some (outlet, .error error) => .error (.error (.ofTransport error)) { opening with outlet }
  | some (outlet, .ok sent) => .ok sent { opening with outlet, accepted := opening.accepted ++ buf.take sent }

def encode {Value : Type} (buf : List UInt8) (put : Frame.Parser Value) : Call (List UInt8) :=
  match put (.withSlice buf) with
  | .ok _ octets => pure octets.written
  | .error failure _ => throw failure

def openUniStream (ty : Nat) : Call Nat := do
  let streamId := (← get).nextUniStreamId
  streamPriority
  let _ ← streamSend (← encode (List.replicate 8 0) (Frame.octets (Octets.putVarint ty))) false
  -- The next stream ID is only calculated when data has been buffered.
  match addU64 streamId 4 with
  | none => throw (.error .idError)
  | some next => do
    modify fun opening => { opening with nextUniStreamId := next }
    return streamId

def settingsFrame (config : Config) (enableDgram : Bool) (grease : Option (Nat × Nat)) : Settings where
  maxFieldSectionSize := config.maxFieldSectionSize
  qpackMaxTableCapacity := config.qpackMaxTableCapacity
  qpackBlockedStreams := config.qpackBlockedStreams
  connectProtocolEnabled := config.connectProtocolEnabled
  h3Datagram := if enableDgram then some 1 else none
  grease := grease
  additionalSettings := config.additionalSettings
  raw := none

def greasePair (grease : Bool) (draw : Draw) : Option (Nat × Nat) :=
  if grease then some (greaseValue draw.first, greaseValue draw.second) else none

def openControlStream : Call Nat := fun opening =>
  match openUniStream http3ControlStreamTypeId opening with
  | .error (.error .done) opening => .error (.error .internalError) opening
  | result => result

def sendSettings (draw : Draw) : Call Unit := do
  let streamId ← openControlStream
  modify fun opening => { opening with controlStreamId := some streamId }
  let opening ← get
  let frame := settingsFrame opening.config opening.enableDgram (greasePair opening.grease draw)
  let bytes ← encode (List.replicate 128 42) (Frame.settings frame).toBytes
  let _ ← streamSend bytes false

open Octets

variable {Value : Type} {opening : Opening} {outlet : Outlet} {config : Config} {isServer enableDgram grease : Bool}
  {draw : Draw} {buf output : List UInt8}

/-- The control stream is not yet open, and its credit takes the stream type and the whole buffer. -/
structure Ample (outlet : Outlet) : Prop where
  fresh : outlet.send = none
  mayOpen : outlet.mayOpen = true
  credit : 129 ≤ outlet.txCap
  window : 129 ≤ outlet.initialMaxData.val

section Transport

theorem encode_emits {put : Frame.Parser Value} {value : Value}
    (emits : Emits tape (Failure.error .bufferTooShort) put output value) (fits : output.length ≤ buf.length) :
    encode buf put = pure output := by
  have room : output.length ≤ (withSlice buf).cap := fits
  have written := emits.writes (withSlice buf) room
  have bytes : ((withSlice buf).append output).written = output := append_written room
  rw [encode, written]
  show pure ((withSlice buf).append output).written = _
  rw [bytes]

theorem streamSend_ample {send : SendBuf} {stream : List UInt8} (found : opening.outlet.send = some send)
    (valid : SendBuf.Valid stream send) (open_ : send.finOff = none) (fits : buf.length ≤ opening.outlet.room send) :
    ∃ next after, streamSend buf false opening = .ok buf.length next ∧ next = { opening with
        outlet := { opening.outlet with send := some after, txCap := opening.outlet.txCap - buf.length }
        accepted := opening.accepted ++ buf } ∧ SendBuf.Stored stream send buf false after := by
  obtain ⟨after, sent, stored⟩ := Outlet.streamSend_room buf (Outlet.getOrCreateStream_some found) valid open_ fits false
  refine ⟨_, after, ?_, rfl, stored⟩
  simp only [streamSend, sent, List.take_length]

/-- The control stream is open, and there is credit for the whole buffer behind the stream type. -/
structure Opened (opening next : Opening) : Prop where
  config : next.config = opening.config
  enableDgram : next.enableDgram = opening.enableDgram
  grease : next.grease = opening.grease
  accepted : next.accepted = opening.accepted ++ varint http3ControlStreamTypeId
  outlet : ∃ send stream, next.outlet.send = some send ∧ SendBuf.Valid stream send ∧ send.finOff = none ∧
    128 ≤ next.outlet.room send

theorem openControlStream_ample (ample : Ample opening.outlet) (unopened : opening.nextUniStreamId ≤ 3) :
    ∃ streamId next, openControlStream opening = .ok streamId next ∧ Opened opening next := by
  obtain ⟨fresh, mayOpen, credit, window⟩ := ample
  obtain ⟨created, made⟩ : ∃ created : Opening, created = { opening with
      outlet := { opening.outlet with send := some (.new opening.outlet.initialMaxData) } } := ⟨_, rfl⟩
  have prioritised : streamPriority opening = .ok () created := by
    rw [streamPriority, Outlet.getOrCreateStream, fresh, made]
    simp [mayOpen]
  have found : created.outlet.send = some (.new opening.outlet.initialMaxData) := by rw [made]
  have valid := SendBuf.new_valid opening.outlet.initialMaxData.property
  have room : created.outlet.room (.new opening.outlet.initialMaxData) =
      min opening.outlet.txCap opening.outlet.initialMaxData := by rw [made]; rfl
  have typeBytes : encode (List.replicate 8 0) (Frame.octets (putVarint http3ControlStreamTypeId)) =
      pure (varint http3ControlStreamTypeId) := by
    apply encode_emits ((appends_putVarint (by decide)).adaptExcept Frame.ofFault)
    decide
  have length : (varint http3ControlStreamTypeId).length = 1 := rfl
  have fits : (varint http3ControlStreamTypeId).length ≤ created.outlet.room (.new opening.outlet.initialMaxData) := by
    rw [room, length]
    omega
  obtain ⟨typed, after, sent, kept, stored⟩ := streamSend_ample found valid rfl fits
  have next : addU64 opening.nextUniStreamId 4 = some (opening.nextUniStreamId + 4) := addU64_of_lt (by omega)
  have opened : openUniStream http3ControlStreamTypeId opening = .ok opening.nextUniStreamId
      { typed with nextUniStreamId := opening.nextUniStreamId + 4 } := by
    rw [openUniStream, get_bind, bind_ok prioritised, typeBytes, pure_bind, bind_ok sent, next]
    rfl
  refine ⟨opening.nextUniStreamId, _, by rw [openControlStream, opened], ?_⟩
  have off : after.off = 1 := by rw [stored.valid.off_eq]; rfl
  constructor
  · simp only [kept, made]
  · simp only [kept, made]
  · simp only [kept, made]
  · simp only [kept, made]
  · refine ⟨after, _, by rw [kept], stored.valid, by rw [stored.finOff]; rfl, ?_⟩
    simp only [Outlet.room, stored.maxData, off, length, kept, made, SendBuf.new]
    omega

end Transport

section Announce

/-- The settings are those of the configuration. -/
structure Configured (config : Config) (enableDgram : Bool) (received : Settings) : Prop where
  maxFieldSectionSize : received.maxFieldSectionSize = config.maxFieldSectionSize
  qpackMaxTableCapacity : received.qpackMaxTableCapacity = config.qpackMaxTableCapacity
  qpackBlockedStreams : received.qpackBlockedStreams = config.qpackBlockedStreams
  connectProtocolEnabled : received.connectProtocolEnabled = config.connectProtocolEnabled
  h3Datagram : received.h3Datagram = if enableDgram then some 1 else none
  additional : ∀ pair ∈ config.additionalSettings.getD [], pair ∈ received.additionalSettings.getD []

/-- On a connection with credit, one SETTINGS frame is written behind the stream type, and what a peer decodes is
the configuration. -/
def Announced (config : Config) (isServer enableDgram grease : Bool) (draw : Draw) : Prop :=
  ∀ outlet, Ample outlet → ∃ next payload received,
    sendSettings draw (new config isServer enableDgram grease outlet) = .ok () next ∧
      next.accepted = varint http3ControlStreamTypeId ++
        (varint settingsFrameTypeId ++ (varint payload.length ++ payload)) ∧
      Frame.fromBytes settingsFrameTypeId payload.length payload = .ok (.settings received) ∧
      Configured config enableDgram received

/-- The settings fit into varints and into the buffer, and none is reserved. -/
structure Announceable (config : Config) (enableDgram grease : Bool) (draw : Draw) : Prop where
  integers : ∀ pair ∈ (settingsFrame config enableDgram (greasePair grease draw)).pairs, pair.1 < 2 ^ 62 ∧ pair.2 < 2 ^ 62
  size : (Frame.settings (settingsFrame config enableDgram (greasePair grease draw))).wire.length ≤ 128
  unreserved : ∀ pair ∈ config.additionalSettings.getD [], pair.1 ∉ [0x0, 0x2, 0x3, 0x4, 0x5]

theorem sendSettings_ample (config : Config) (isServer enableDgram grease : Bool) (draw : Draw) (ample : Ample outlet) :
    ∃ opened, opened.accepted = varint http3ControlStreamTypeId ∧
      (∃ send stream, opened.outlet.send = some send ∧ SendBuf.Valid stream send ∧ send.finOff = none ∧
        128 ≤ opened.outlet.room send) ∧ sendSettings draw (new config isServer enableDgram grease outlet) = (do
        let bytes ← encode (List.replicate 128 42)
          (Frame.settings (settingsFrame config enableDgram (greasePair grease draw))).toBytes
        let _ ← streamSend bytes false : Call Unit) opened := by
  have unopened : (new config isServer enableDgram grease outlet).nextUniStreamId ≤ 3 := by
    cases isServer <;> simp [new]
  obtain ⟨streamId, opened, ran, kept⟩ := openControlStream_ample ample unopened
  refine ⟨{ opened with controlStreamId := some streamId }, kept.accepted, kept.outlet, ?_⟩
  rw [sendSettings, bind_ok ran, modify_bind, get_bind, kept.config, kept.enableDgram, kept.grease]
  rfl

theorem greaseValue_free (n : Fin 148764065110560899) :
    greaseValue n ∉ Frame.knownSettings ∧ greaseValue n ∉ Frame.reservedSettings := by
  constructor
  · intro known
    simp only [Frame.knownSettings, List.mem_cons, List.not_mem_nil, or_false, greaseValue,
      settingsQpackMaxTableCapacity, settingsMaxFieldSectionSize, settingsQpackBlockedStreams,
      settingsEnableConnectProtocol, settingsH3Datagram00, settingsH3Datagram] at known
    omega
  · intro reserved
    simp only [Frame.reservedSettings, List.mem_cons, List.not_mem_nil, or_false, greaseValue] at reserved
    omega

theorem greasePair_free (grease : Bool) (draw : Draw) :
    ∀ pair ∈ (greasePair grease draw).toList, pair.1 ∉ Frame.knownSettings ∧ pair.1 ∉ Frame.reservedSettings := by
  cases grease with
  | false => simp [greasePair]
  | true =>
    intro pair member
    cases List.mem_singleton.mp member
    exact greaseValue_free draw.first

section

variable (checked : config.Checked) (announceable : Announceable config enableDgram grease draw)

include checked announceable

theorem settingsFrame_acceptable : Frame.Acceptable (settingsFrame config enableDgram (greasePair grease draw)) ∧
      ∀ pair ∈ (settingsFrame config enableDgram (greasePair grease draw)).announced, pair.1 ∉ Frame.knownSettings := by
  have greased := greasePair_free grease draw
  have size := announceable.size
  simp only [Frame.wire, List.length_append] at size
  refine ⟨⟨?_, checked.connectProtocol, ?_, ?_⟩, ?_⟩
  · exact List.forall_mem_append.mpr ⟨fun pair member => (greased pair member).2, announceable.unreserved⟩
  · cases enableDgram <;> simp [settingsFrame]
  · have payload : (Frame.settings (settingsFrame config enableDgram (greasePair grease draw))).payload.length ≤
      128 := by omega
    exact Nat.le_trans payload (by decide)
  · exact List.forall_mem_append.mpr ⟨fun pair member => (greased pair member).1, checked.additional⟩

theorem announced_of_announceable : Announced config isServer enableDgram grease draw := by
  intro outlet ample
  obtain ⟨opened, accepted, ⟨send, stream, found, valid, open_, room⟩, ran⟩ :=
    sendSettings_ample config isServer enableDgram grease draw ample
  obtain ⟨frame, framed⟩ : ∃ frame, frame = settingsFrame config enableDgram (greasePair grease draw) := ⟨_, rfl⟩
  obtain ⟨acceptable, unknown⟩ := settingsFrame_acceptable checked announceable
  obtain ⟨integers, size, _⟩ := announceable
  rw [← framed] at acceptable unknown integers size ran
  have payload : (Frame.settings frame).payload.length ≤ (Frame.settings frame).wire.length := by
    simp only [Frame.wire, List.length_append]
    omega
  have short : (Frame.settings frame).payload.length < 2 ^ 62 := by omega
  have bytes : encode (List.replicate 128 42) (Frame.settings frame).toBytes = pure (Frame.settings frame).wire :=
    encode_emits (Frame.emits_toBytes integers short) size
  obtain ⟨next, after, sent, kept, _⟩ := streamSend_ample found valid open_ (Nat.le_trans size room)
  refine ⟨next, (Frame.settings frame).payload, frame.received, ?_, ?_, ?_, ?_⟩
  · rw [ran, bytes, pure_bind, bind_ok sent]
    rfl
  · rw [kept]
    exact congrArg (· ++ _) accepted
  · show Frame.fromBytes settingsFrameTypeId (Frame.pairsBytes frame.pairs).length (Frame.pairsBytes frame.pairs) = _
    rw [Frame.fromBytes_pairs (Frame.spells_pairsBytes integers) acceptable.size]
    exact (Frame.settingsOf_received acceptable).mpr unknown
  · subst framed
    refine ⟨rfl, rfl, rfl, rfl, rfl, fun pair member => ?_⟩
    have listed : pair ∈ (settingsFrame config enableDgram (greasePair grease draw)).announced :=
      List.mem_append_right _ member
    have present := List.ne_nil_of_mem listed
    simp only [Settings.received, if_neg present]
    exact listed

end

theorem encode_ok {put : Frame.Parser Value} {bytes : List UInt8} {next : Opening}
    (encoded : encode buf put opening = .ok bytes next) :
    ∃ value octets, put (withSlice buf) = .ok value octets ∧ bytes = octets.written ∧ next = opening := by
  rw [encode] at encoded
  cases written : put (withSlice buf) with
  | ok value octets =>
    rw [written] at encoded
    cases encoded
    exact ⟨value, octets, rfl, rfl, rfl⟩
  | error failure octets =>
    rw [written] at encoded
    cases encoded

theorem toBytes_fits {frame : Settings} {state after : Octets} {count : Nat}
    (written : (Frame.settings frame).toBytes state = .ok count after) :
    (∀ pair ∈ frame.pairs, Frame.Fits pair) ∧ (Frame.settings frame).payload.length < 2 ^ 62 := by
  by_contra unfit
  obtain ⟨failure, broken, failed⟩ := Frame.fails_putSettingsFrame unfit state
  rw [Frame.toBytes, get_bind] at written
  obtain ⟨_, _, put, _⟩ := bind_eq_ok written
  have refused : Frame.octets (Frame.settings frame).put state = .error (Frame.ofFault failure) broken :=
    adaptExcept_error failed Frame.ofFault
  cases refused.symm.trans put

theorem varint_append_inj {first second : Nat} {left right : List UInt8} (firstFits : first < 2 ^ 62)
    (secondFits : second < 2 ^ 62) (same : varint first ++ left = varint second ++ right) : left = right := by
  have one := reads_varint firstFits (withSlice (varint first ++ left)) left rfl
  have two := reads_varint secondFits (withSlice (varint first ++ left)) right same
  rw [one] at two
  injection two with value
  subst value
  exact List.append_cancel_left same

theorem announceable_of_announced (announced : Announced config isServer enableDgram grease draw) :
    Announceable config enableDgram grease draw := by
  have ample : Ample ⟨0, none, 129, ⟨129, by decide⟩, true, false⟩ := ⟨rfl, rfl, by decide, by decide⟩
  obtain ⟨next, payload, received, sent, accepted, parsed, _⟩ := announced _ ample
  obtain ⟨opened, opening, ⟨send, stream, found, valid, open_, room⟩, ran⟩ :=
    sendSettings_ample config isServer enableDgram grease draw ample
  obtain ⟨frame, framed⟩ : ∃ frame, frame = settingsFrame config enableDgram (greasePair grease draw) := ⟨_, rfl⟩
  have length : (List.replicate 128 (42 : UInt8)).length = 128 := List.length_replicate
  generalize List.replicate 128 (42 : UInt8) = buf at ran length
  rw [ran, ← framed] at sent
  obtain ⟨bytes, middle, encoded, finished⟩ := bind_eq_ok sent
  obtain ⟨count, octets, written, rfl, rfl⟩ := encode_ok encoded
  obtain ⟨fits, short⟩ := toBytes_fits written
  have integers : (Frame.settings frame).Integers := fits
  obtain ⟨size, _, place⟩ := (Frame.emits_toBytes integers short).of_ok written
  have within : (Frame.settings frame).wire.length ≤ 128 := Nat.le_trans size (Nat.le_of_eq length)
  have output : octets.written = (Frame.settings frame).wire := by
    rw [place]
    exact append_written size
  have wire : (Frame.settings frame).wire = varint settingsFrameTypeId ++ (varint payload.length ++ payload) := by
    obtain ⟨last, after, told, kept, _⟩ := streamSend_ample found valid open_ (Nat.le_trans within room)
    rw [output, bind_ok told] at finished
    cases finished
    rw [kept] at accepted
    rw [opening] at accepted
    exact List.append_cancel_left accepted
  have payloadShort : payload.length < 2 ^ 62 := by
    have total := congrArg List.length wire
    simp only [List.length_append] at total
    omega
  have same : (Frame.settings frame).payload = payload :=
    varint_append_inj short payloadShort (List.append_cancel_left wire)
  have small : (Frame.pairsBytes frame.pairs).length ≤ maxSettingsPayloadSize := by
    simp only [Frame.wire, List.length_append] at within
    have bytes : (Frame.settings frame).payload = Frame.pairsBytes frame.pairs := rfl
    rw [bytes] at within
    rw [maxSettingsPayloadSize]
    omega
  have pairs : Frame.settingsOf frame.pairs = .ok (.settings received) := by
    rw [← Frame.fromBytes_pairs (Frame.spells_pairsBytes fits) small, ← parsed, ← same]
    rfl
  subst framed
  refine ⟨fits, within, ?_⟩
  rw [Frame.settingsOf] at pairs
  cases added : Frame.addSettings .none (settingsFrame config enableDgram (greasePair grease draw)).pairs with
  | error error =>
    rw [added] at pairs
    cases pairs
  | ok updated =>
    have unreserved := Frame.addSettings_unreserved added
    simp only [Settings.pairs, Settings.announced, List.forall_mem_append] at unreserved
    exact unreserved.2.2.2.2.2.2.2

end Announce

theorem config_announced_iff {setters : List Config.Setter}
    (built : Config.machine.run Config.new setters = some config) (isServer enableDgram grease : Bool) (draw : Draw) :
    Announced config isServer enableDgram grease draw ↔ Announceable config enableDgram grease draw :=
  ⟨announceable_of_announced, announced_of_announceable (Config.built_checked built)⟩

def limitedSetters : List Config.Setter := [.setMaxFieldSectionSize 16384, .setAdditionalSettings [(0x40, 1)]]

def limitedConfig : Config := ⟨some 16384, none, none, none, some [(0x40, 1)]⟩

theorem config_announced_iff_limited : Announced limitedConfig true true true ⟨0, 1⟩ := by
  have built : Config.machine.run Config.new limitedSetters = some limitedConfig := by decide
  refine (config_announced_iff built true true true ⟨0, 1⟩).mpr ⟨?_, by decide, by decide⟩
  exact List.forall_iff_forall_mem.mp (by decide)

def unlimitedConfig : Config := ⟨some (2 ^ 64 - 1), none, none, none, none⟩

def reservedConfig : Config := ⟨none, none, none, none, some [(0x2, 1)]⟩

def ampleOutlet : Outlet := ⟨3, none, 4096, ⟨4096, by decide⟩, true, false⟩

theorem unannounceable_configs :
    Config.machine.run Config.new [.setMaxFieldSectionSize (2 ^ 64 - 1)] = some unlimitedConfig ∧
      (∃ last, sendSettings ⟨0, 0⟩ (new unlimitedConfig true false false ampleOutlet) = .error .panic last) ∧
      ¬ Announced unlimitedConfig true false false ⟨0, 0⟩ ∧
      Config.machine.run Config.new [.setAdditionalSettings [(0x2, 1)]] = some reservedConfig ∧
      Frame.fromBytes settingsFrameTypeId 2 [0x2, 0x1] = .error (.error .settingsError) := by
  have ample : Ample ampleOutlet := ⟨rfl, rfl, by decide, by decide⟩
  have panics : ∃ last, sendSettings ⟨0, 0⟩ (new unlimitedConfig true false false ampleOutlet) = .error .panic last :=
    ⟨_, rfl⟩
  refine ⟨by decide, panics, ?_, by decide, rfl⟩
  intro announced
  obtain ⟨next, payload, received, sent, _⟩ := announced ampleOutlet ample
  obtain ⟨last, failed⟩ := panics
  rw [failed] at sent
  cases sent

end Opening

end Quiche.H3
