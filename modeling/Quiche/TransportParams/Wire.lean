import Quiche.Octets.Wire
import Quiche.TransportParams

namespace Quiche.AllTransportParams

open Data Octets

variable {tp before middle after : AllTransportParams} {isServer : Bool} {ty value len : Nat}
  {octets : Octets}

section Fields

/-- A parameter on the wire: its identifier and, unless it is left out, its value. -/
abbrev Field := Nat × Option (List UInt8)

def integerField (absent ty value : Nat) : Field := (ty, if value ≠ absent then some (varint value) else none)

def serverField (isServer : Bool) (ty : Nat) (bytes : Option (List UInt8)) : Field :=
  (ty, if isServer then bytes else none)

def flagField (ty : Nat) (present : Bool) : Field := (ty, if present then some [] else none)

def fieldBytes : Field → List UInt8
  | (ty, some bytes) => varint ty ++ (varint bytes.length ++ bytes)
  | (_, none) => []

def tokenBytes (token : BitVec 128) : List UInt8 := (ConnectionIdentifiers.toBeBytes token).toList

/-- The parameters of an endpoint, in the order in which they are written. -/
def fields (tp : AllTransportParams) (isServer : Bool) : List Field :=
  [serverField isServer 0x00 tp.originalDestinationConnectionId, integerField 0 0x01 tp.maxIdleTimeout,
    serverField isServer 0x02 (tp.statelessResetToken.map tokenBytes), integerField 0 0x03 tp.maxUdpPayloadSize,
    integerField 0 0x04 tp.initialMaxData, integerField 0 0x05 tp.initialMaxStreamDataBidiLocal,
    integerField 0 0x06 tp.initialMaxStreamDataBidiRemote, integerField 0 0x07 tp.initialMaxStreamDataUni,
    integerField 0 0x08 tp.initialMaxStreamsBidi, integerField 0 0x09 tp.initialMaxStreamsUni,
    integerField 0 0x0a tp.ackDelayExponent, integerField 0 0x0b tp.maxAckDelay,
    flagField 0x0c tp.disableActiveMigration, integerField 2 0x0e tp.activeConnIdLimit,
    (0x0f, tp.initialSourceConnectionId), serverField isServer 0x10 tp.retrySourceConnectionId,
    (0x20, tp.maxDatagramFrameSize.map varint)]

def wire (tp : AllTransportParams) (isServer : Bool) : List UInt8 := (tp.fields isServer).flatMap fieldBytes

end Fields

section Writers

theorem writes_encodeParam (tyBound : ty < 2 ^ 62) (lenBound : len < 2 ^ 62) :
    Writes tape (encodeParam ty len) (varint ty ++ varint len) () :=
  (writes_putVarint tyBound).bind (writes_putVarint lenBound)

theorem writes_encodeInteger (tyBound : ty < 2 ^ 62) (bound : value < 2 ^ 62) :
    Writes tape (encodeInteger ty value) (fieldBytes (ty, some (varint value))) () := by
  obtain ⟨len, tag, width, bytes, kind, _⟩ := varint_exists bound
  have small : len < 2 ^ 62 := by cases kind <;> decide
  have size : (varint value).length = len := by rw [bytes, varintBytes_length]
  rw [encodeInteger, width, fieldBytes, size, ← List.append_assoc]
  exact (writes_encodeParam tyBound small).bind (writes_putVarint bound)

theorem writes_encodeUnless (absent : Nat) (tyBound : ty < 2 ^ 62) (bound : value < 2 ^ 62) :
    Writes tape (encodeUnless absent ty value) (fieldBytes (integerField absent ty value)) () := by
  rw [encodeUnless, integerField]
  split
  · exact writes_encodeInteger tyBound bound
  · exact writes_pure ()

theorem writes_encodeBytes {bytes : List UInt8} (tyBound : ty < 2 ^ 62) (bound : bytes.length < 2 ^ 62) :
    Writes tape (encodeBytes ty bytes) (fieldBytes (ty, some bytes)) () := by
  rw [encodeBytes, fieldBytes, ← List.append_assoc]
  exact (writes_encodeParam tyBound bound).bind (writes_putBytes bytes)

theorem writes_optionalBytes {bytes : Option (List UInt8)} (tyBound : ty < 2 ^ 62)
    (bound : ∀ value, bytes = some value → value.length < 2 ^ 62) :
    Writes tape (encodeOption (encodeBytes ty) bytes) (fieldBytes (ty, bytes)) () := by
  cases bytes with
  | none => exact writes_pure ()
  | some value => exact writes_encodeBytes tyBound (bound value rfl)

theorem writes_optionalInteger {option : Option Nat} (tyBound : ty < 2 ^ 62)
    (bound : ∀ value, option = some value → value < 2 ^ 62) :
    Writes tape (encodeOption (encodeInteger ty) option) (fieldBytes (ty, option.map varint)) () := by
  cases option with
  | none => exact writes_pure ()
  | some value => exact writes_encodeInteger tyBound (bound value rfl)

theorem tokenBytes_length (token : BitVec 128) : (tokenBytes token).length = 16 := Vector.length_toList

theorem writes_optionalToken {token : Option (BitVec 128)} (tyBound : ty < 2 ^ 62) :
    Writes tape (encodeOption (fun token => encodeBytes ty (tokenBytes token)) token)
      (fieldBytes (ty, token.map tokenBytes)) () := by
  cases token with
  | none => exact writes_pure ()
  | some token =>
    apply writes_encodeBytes tyBound
    rw [tokenBytes_length]
    decide

theorem writes_encodeFlag (tyBound : ty < 2 ^ 62) (present : Bool) :
    Writes tape (encodeFlag ty present) (fieldBytes (flagField ty present)) () := by
  cases present with
  | false => exact writes_pure ()
  | true =>
    have writes := writes_encodeParam tyBound (show 0 < 2 ^ 62 by decide)
    rw [flagField, if_pos rfl, fieldBytes, List.append_nil]
    exact writes

theorem writes_whenServer {encode : Action Unit} {bytes : Option (List UInt8)}
    (writes : Writes tape encode (fieldBytes (ty, bytes)) ()) :
    Writes tape (whenServer isServer encode) (fieldBytes (serverField isServer ty bytes)) () := by
  cases isServer with
  | false => exact writes_pure ()
  | true => exact writes

end Writers

section Range

/-- The ranges that `decode` enforces, and integers that have a variable-length form. -/
structure InRange (tp : AllTransportParams) : Prop where
  maxIdleTimeout : tp.maxIdleTimeout < 2 ^ 62
  maxUdpPayloadSize : 1200 ≤ tp.maxUdpPayloadSize ∧ tp.maxUdpPayloadSize < 2 ^ 62
  initialMaxData : tp.initialMaxData < 2 ^ 62
  initialMaxStreamDataBidiLocal : tp.initialMaxStreamDataBidiLocal < 2 ^ 62
  initialMaxStreamDataBidiRemote : tp.initialMaxStreamDataBidiRemote < 2 ^ 62
  initialMaxStreamDataUni : tp.initialMaxStreamDataUni < 2 ^ 62
  initialMaxStreamsBidi : tp.initialMaxStreamsBidi ≤ 2 ^ 60
  initialMaxStreamsUni : tp.initialMaxStreamsUni ≤ 2 ^ 60
  ackDelayExponent : tp.ackDelayExponent ≤ 20
  maxAckDelay : tp.maxAckDelay < 2 ^ 14
  activeConnIdLimit : 2 ≤ tp.activeConnIdLimit ∧ tp.activeConnIdLimit < 2 ^ 62
  maxDatagramFrameSize : ∀ size, tp.maxDatagramFrameSize = some size → size < 2 ^ 62

/-- A client has none of the parameters that only a server may send. -/
structure FromClient (tp : AllTransportParams) : Prop where
  originalDestinationConnectionId : tp.originalDestinationConnectionId = none
  statelessResetToken : tp.statelessResetToken = none
  retrySourceConnectionId : tp.retrySourceConnectionId = none

/-- The lengths of the identifiers fit into varints. -/
structure ShortIds (tp : AllTransportParams) : Prop where
  original : ∀ cid, tp.originalDestinationConnectionId = some cid → cid.length < 2 ^ 62
  initial : ∀ cid, tp.initialSourceConnectionId = some cid → cid.length < 2 ^ 62
  retry : ∀ cid, tp.retrySourceConnectionId = some cid → cid.length < 2 ^ 62

theorem writes_encodeParams (range : tp.InRange) (short : tp.ShortIds) :
    Writes tape (tp.encodeParams isServer) (tp.wire isServer) () := by
  have exponent := range.ackDelayExponent
  have delay := range.maxAckDelay
  have bidi := range.initialMaxStreamsBidi
  have uni := range.initialMaxStreamsUni
  rw [encodeParams, wire]
  simp only [fields, List.flatMap_cons, List.flatMap_nil, List.append_nil]
  apply (writes_whenServer (writes_optionalBytes (by decide) short.original)).bind
  apply (writes_encodeUnless 0 (by decide) range.maxIdleTimeout).bind
  apply (writes_whenServer (writes_optionalToken (by decide))).bind
  apply (writes_encodeUnless 0 (by decide) range.maxUdpPayloadSize.2).bind
  apply (writes_encodeUnless 0 (by decide) range.initialMaxData).bind
  apply (writes_encodeUnless 0 (by decide) range.initialMaxStreamDataBidiLocal).bind
  apply (writes_encodeUnless 0 (by decide) range.initialMaxStreamDataBidiRemote).bind
  apply (writes_encodeUnless 0 (by decide) range.initialMaxStreamDataUni).bind
  apply (writes_encodeUnless 0 (by decide) (by omega)).bind
  apply (writes_encodeUnless 0 (by decide) (by omega)).bind
  apply (writes_encodeUnless 0 (by decide) (by omega)).bind
  apply (writes_encodeUnless 0 (by decide) (by omega)).bind
  apply (writes_encodeFlag (by decide) tp.disableActiveMigration).bind
  apply (writes_encodeUnless 2 (by decide) range.activeConnIdLimit.2).bind
  apply (writes_optionalBytes (by decide) short.initial).bind
  apply (writes_whenServer (writes_optionalBytes (by decide) short.retry)).bind
  exact writes_optionalInteger (by decide) range.maxDatagramFrameSize

end Range

section Readers

theorem fromValue_of_reads {Value : Type} {read : Action Value} {bytes : List UInt8} {result : Value}
    (reads : Reads cursor read bytes result) : fromValue bytes read = pure result := by
  have front : (withSlice bytes).rest = bytes ++ [] := by simp [withSlice, rest]
  rw [fromValue, reads (withSlice bytes) [] front]

theorem fromValue_varint (bound : value < 2 ^ 62) : fromValue (varint value) getVarint = pure value :=
  fromValue_of_reads (reads_varint bound)

theorem integerValue_varint (accepts : Nat → Bool) (bound : value < 2 ^ 62)
    (accepted : accepts value = true) : integerValue (varint value) accepts = pure value := by
  rw [integerValue, fromValue_varint bound, pure_bind, if_pos accepted]

theorem fromValue_token (token : BitVec 128) :
    fromValue (tokenBytes token) (getBytes 16) = pure (tokenBytes token) := by
  have reads := reads_getBytes (tokenBytes token)
  rw [tokenBytes_length] at reads
  exact fromValue_of_reads reads

theorem fromBeBytes_tokenBytes (token : BitVec 128) : fromBeBytes (tokenBytes token) = token := by
  have bytes : tokenBytes token = bigEndian 16 token.toNat := by
    simp [tokenBytes, ConnectionIdentifiers.toBeBytes, Vector.toList]
  have small : token.toNat < 256 ^ 16 := token.isLt
  rw [fromBeBytes, bytes, ofBigEndian_bigEndian, Nat.mod_eq_of_lt small, BitVec.ofNat_toNat, BitVec.setWidth_eq]

/-- What a parameter does to the parameters decoded so far. -/
def Takes (isServer : Bool) (field : Field) (before after : AllTransportParams) : Prop :=
  match field.2 with
  | some val => decodeParam isServer before field.1 val = pure after
  | none => after = before

/-- The fields are taken one after the other. -/
inductive TakesAll (isServer : Bool) :
    List Field → AllTransportParams → AllTransportParams → Prop where
  | nil (tp : AllTransportParams) : TakesAll isServer [] tp tp
  | cons {field : Field} {rest : List Field} {before middle after : AllTransportParams} :
      Takes isServer field before middle → TakesAll isServer rest middle after →
      TakesAll isServer (field :: rest) before after

/-- The identifier and the length of the field fit into varints. -/
structure Fits (field : Field) : Prop where
  id : field.1 < 2 ^ 62
  value : ∀ val, field.2 = some val → val.length < 2 ^ 62

theorem fieldBytes_pos {id : Nat} (bound : id < 2 ^ 62) (val : List UInt8) :
    0 < (fieldBytes (id, some val)).length := by
  obtain ⟨len, tag, _, bytes, kind, _⟩ := varint_exists bound
  have positive : 0 < len := by cases kind <;> decide
  rw [fieldBytes, List.length_append, bytes, varintBytes_length]
  omega

theorem decodeParams_turn {id fuel : Nat} {val tail : List UInt8} {seen : List Nat}
    (takes : Takes isServer (id, some val) before middle) (fits : Fits (id, some val))
    (fresh : id ∉ seen) (front : octets.rest = fieldBytes (id, some val) ++ tail) :
    decodeParams isServer (fuel + 1) seen before octets = decodeParams isServer fuel (id :: seen) middle
        (octets.advance (fieldBytes (id, some val)).length) := by
  have more : ¬ octets.cap = 0 := by
    have positive : 0 < (fieldBytes (id, some val)).length := fieldBytes_pos fits.id val
    rw [← rest_length, front, List.length_append]
    omega
  rw [fieldBytes, List.append_assoc] at front
  have identified : getVarint octets = .ok id (octets.advance (varint id).length) := reads_varint fits.id octets _ front
  have remaining : (octets.advance (varint id).length).rest = varint val.length ++ val ++ tail := by
    rw [show (octets.advance (varint id).length).rest = octets.rest.drop _ from
      cursor.rest_advance _ octets, front, List.drop_left]
  have valued := reads_getBytesWithVarintLength (fits.value val rfl) _ tail remaining
  have moved : (octets.advance (varint id).length).advance (varint val.length ++ val).length =
      octets.advance (fieldBytes (id, some val)).length := by
    rw [fieldBytes, @List.length_append _ (varint id)]
    exact cursor.advance_advance _ _ octets
  rw [decodeParams, get_bind, if_neg more, bind_ok identified, if_neg fresh, bind_ok valued]
  rw [show decodeParam isServer before id val = pure middle from takes, pure_bind]
  exact congrArg _ moved

theorem decodeParams_takesAll {written : List Field} {fuel : Nat} {seen : List Nat}
    (takes : TakesAll isServer written before after) (fits : ∀ field ∈ written, Fits field)
    (distinct : (seen ++ written.map Prod.fst).Nodup)
    (front : octets.rest = written.flatMap fieldBytes) (enough : octets.cap ≤ fuel) :
    ∃ last, decodeParams isServer fuel seen before octets = .ok after last := by
  induction takes generalizing octets fuel seen with
  | nil tp =>
    have empty : octets.cap = 0 := by
      rw [← rest_length, front]
      rfl
    cases fuel with
    | zero => exact ⟨octets, rfl⟩
    | succ fuel =>
      refine ⟨octets, ?_⟩
      rw [decodeParams, get_bind, if_pos empty]
      rfl
  | @cons field rest before middle after first others ih =>
    obtain ⟨fieldFits, restFit⟩ := List.forall_mem_cons.mp fits
    obtain ⟨id, bytes⟩ := field
    cases bytes with
    | none =>
      cases first
      exact ih restFit (distinct.sublist (by simp)) front enough
    | some val =>
      have fresh : id ∉ seen := by
        intro known
        exact List.disjoint_of_nodup_append distinct known List.mem_cons_self
      have turned : ((id :: seen) ++ rest.map Prod.fst).Nodup := by
        rw [List.map_cons] at distinct
        exact (List.perm_middle.nodup_iff).mp distinct
      have positive : 0 < (fieldBytes (id, some val)).length := fieldBytes_pos fieldFits.id val
      have size : octets.cap = (fieldBytes (id, some val)).length + (rest.flatMap fieldBytes).length := by
        rw [← rest_length, front, List.flatMap_cons, List.length_append]
      obtain ⟨turns, rfl⟩ : ∃ turns, fuel = turns + 1 := ⟨fuel - 1, by omega⟩
      have remaining : (octets.advance (fieldBytes (id, some val)).length).rest = rest.flatMap fieldBytes := by
        rw [show (octets.advance _).rest = octets.rest.drop _ from
          cursor.rest_advance _ octets, front, List.flatMap_cons, List.drop_left]
      rw [decodeParams_turn first fieldFits fresh front]
      apply ih restFit turned remaining
      rw [← rest_length, remaining]
      omega

end Readers

section Received

/-- What an integer becomes when `absent` is left out and read as `fallback`. -/
def arrives (absent fallback value : Nat) : Nat := if value ≠ absent then value else fallback

theorem takes_integer {absent fallback : Nat} (update : AllTransportParams → Nat → AllTransportParams)
    (decoded : value ≠ absent → decodeParam isServer before ty (varint value) = pure (update before value))
    (untouched : update before fallback = before) : Takes isServer (integerField absent ty value) before
      (update before (arrives absent fallback value)) := by
  by_cases written : value ≠ absent
  · rw [integerField, arrives, if_pos written, if_pos written]
    exact decoded written
  · rw [integerField, arrives, if_neg written, if_neg written]
    exact untouched

theorem takes_default {absent : Nat} (update : AllTransportParams → Nat → AllTransportParams)
    (decoded : value ≠ absent → decodeParam isServer before ty (varint value) = pure (update before value))
    (untouched : update before absent = before) :
    Takes isServer (integerField absent ty value) before (update before value) := by
  have takes := takes_integer update decoded untouched
  rwa [arrives, ite_not, show (if value = absent then absent else value) = value by split <;> omega]
    at takes

theorem takes_option {Value : Type} {option : Option Value} {bytes : Value → List UInt8}
    (update : AllTransportParams → Option Value → AllTransportParams) (decoded : ∀ value, option = some value →
      decodeParam isServer before ty (bytes value) = pure (update before (some value)))
    (untouched : update before none = before) :
    Takes isServer (ty, option.map bytes) before (update before option) := by
  cases option with
  | none => exact untouched
  | some value => exact decoded value rfl

/-- The parameters as the peer decodes them. -/
def received (tp : AllTransportParams) : AllTransportParams :=
  { tp with
    maxUdpPayloadSize := arrives 0 65527 tp.maxUdpPayloadSize
    ackDelayExponent := arrives 0 3 tp.ackDelayExponent
    maxAckDelay := arrives 0 25 tp.maxAckDelay }

theorem takes_server {Value : Type} {option : Option Value} {bytes : Value → List UInt8}
    (update : AllTransportParams → Option Value → AllTransportParams) (client : isServer = false → option = none)
    (decoded : ∀ value, option = some value →
      decodeParam false before ty (bytes value) = pure (update before (some value)))
    (untouched : update before none = before) :
    Takes (!isServer) (serverField isServer ty (option.map bytes)) before (update before option) := by
  cases isServer with
  | true => exact takes_option update decoded untouched
  | false =>
    rw [client rfl]
    exact untouched

theorem takes_flag {present : Bool} (update : AllTransportParams → Bool → AllTransportParams)
    (decoded : decodeParam isServer before ty [] = pure (update before true))
    (untouched : update before false = before) :
    Takes isServer (flagField ty present) before (update before present) := by
  cases present with
  | false => exact untouched
  | true => exact decoded

theorem takesAll_fields (range : tp.InRange) (known : tp.unknownParams = none)
    (client : isServer = false → tp.FromClient) : TakesAll (!isServer) (tp.fields isServer) default tp.received := by
  have exponent := range.ackDelayExponent
  have delay := range.maxAckDelay
  have bidi := range.initialMaxStreamsBidi
  have uni := range.initialMaxStreamsUni
  have same : ∀ option : Option (List UInt8), option.map id = option := fun option => by simp
  rw [fields, ← same tp.originalDestinationConnectionId, ← same tp.initialSourceConnectionId,
    ← same tp.retrySourceConnectionId]
  apply TakesAll.cons
  · exact takes_server (fun tp cid => { tp with originalDestinationConnectionId := cid })
      (fun own => (client own).originalDestinationConnectionId) (fun _ _ => rfl) rfl
  apply TakesAll.cons
  · apply takes_default (fun tp value => { tp with maxIdleTimeout := value }) _ rfl
    intro _
    simp only [decodeParam, fromValue_varint range.maxIdleTimeout, pure_bind]
  apply TakesAll.cons
  · apply takes_server (fun tp token => { tp with statelessResetToken := token })
      (fun own => (client own).statelessResetToken) _ rfl
    intro token _
    simp only [decodeParam, fromServer, Bool.false_eq_true, if_false, fromValue_token, pure_bind,
      fromBeBytes_tokenBytes]
  apply TakesAll.cons
  · apply takes_integer (fun tp value => { tp with maxUdpPayloadSize := value }) _ rfl
    intro _
    simp only [decodeParam,
      integerValue_varint (1200 ≤ ·) range.maxUdpPayloadSize.2 (decide_eq_true range.maxUdpPayloadSize.1), pure_bind]
  apply TakesAll.cons
  · apply takes_default (fun tp value => { tp with initialMaxData := value }) _ rfl
    intro _
    simp only [decodeParam, fromValue_varint range.initialMaxData, pure_bind]
  apply TakesAll.cons
  · apply takes_default (fun tp value => { tp with initialMaxStreamDataBidiLocal := value }) _ rfl
    intro _
    simp only [decodeParam, fromValue_varint range.initialMaxStreamDataBidiLocal, pure_bind]
  apply TakesAll.cons
  · apply takes_default (fun tp value => { tp with initialMaxStreamDataBidiRemote := value }) _ rfl
    intro _
    simp only [decodeParam, fromValue_varint range.initialMaxStreamDataBidiRemote, pure_bind]
  apply TakesAll.cons
  · apply takes_default (fun tp value => { tp with initialMaxStreamDataUni := value }) _ rfl
    intro _
    simp only [decodeParam, fromValue_varint range.initialMaxStreamDataUni, pure_bind]
  apply TakesAll.cons
  · apply takes_default (fun tp value => { tp with initialMaxStreamsBidi := value }) _ rfl
    intro _
    simp only [decodeParam, integerValue_varint (· ≤ 2 ^ 60) (by omega) (decide_eq_true bidi), pure_bind]
  apply TakesAll.cons
  · apply takes_default (fun tp value => { tp with initialMaxStreamsUni := value }) _ rfl
    intro _
    simp only [decodeParam, integerValue_varint (· ≤ 2 ^ 60) (by omega) (decide_eq_true uni), pure_bind]
  apply TakesAll.cons
  · apply takes_integer (fun tp value => { tp with ackDelayExponent := value }) _ rfl
    intro _
    simp only [decodeParam, integerValue_varint (· ≤ 20) (by omega) (decide_eq_true exponent), pure_bind]
  apply TakesAll.cons
  · apply takes_integer (fun tp value => { tp with maxAckDelay := value }) _ rfl
    intro _
    simp only [decodeParam, integerValue_varint (· < 2 ^ 14) (by omega) (decide_eq_true delay), pure_bind]
  apply TakesAll.cons
  · exact takes_flag (fun tp present => { tp with disableActiveMigration := present }) rfl rfl
  apply TakesAll.cons
  · apply takes_default (fun tp value => { tp with activeConnIdLimit := value }) _ rfl
    intro _
    simp only [decodeParam,
      integerValue_varint (2 ≤ ·) range.activeConnIdLimit.2 (decide_eq_true range.activeConnIdLimit.1), pure_bind]
  apply TakesAll.cons
  · exact takes_option (fun tp cid => { tp with initialSourceConnectionId := cid }) (fun _ _ => rfl) rfl
  apply TakesAll.cons
  · exact takes_server (fun tp cid => { tp with retrySourceConnectionId := cid })
      (fun own => (client own).retrySourceConnectionId) (fun _ _ => rfl) rfl
  apply TakesAll.cons
  · apply takes_option (fun tp size => { tp with maxDatagramFrameSize := size }) _ rfl
    intro size present
    simp only [decodeParam, fromValue_varint (range.maxDatagramFrameSize size present), pure_bind]
  simp only [received, known]
  exact .nil _

end Received

section Survives

variable {out : List UInt8}

theorem varint_length_lt (value : Nat) : (varint value).length < 2 ^ 62 := by
  rw [varint]
  cases width : varintLen value with
  | none => exact Nat.two_pow_pos 62
  | some len =>
    rw [varintBytes_length]
    simp only [varintLen] at width
    repeat' split at width
    all_goals cases width <;> decide

theorem fits_integerField {absent : Nat} (tyBound : ty < 2 ^ 62) : Fits (integerField absent ty value) where
  id := tyBound
  value := by
    intro val written
    rw [integerField] at written
    split at written
    · cases written
      exact varint_length_lt value
    · cases written

theorem fits_serverField {bytes : Option (List UInt8)} (tyBound : ty < 2 ^ 62)
    (short : ∀ val, bytes = some val → val.length < 2 ^ 62) : Fits (serverField isServer ty bytes) where
  id := tyBound
  value := by
    intro val written
    cases isServer with
    | true => exact short val written
    | false => cases written

theorem fits_option {bytes : Option (List UInt8)} (tyBound : ty < 2 ^ 62)
    (short : ∀ val, bytes = some val → val.length < 2 ^ 62) : Fits (ty, bytes) := ⟨tyBound, short⟩

theorem fits_flagField {present : Bool} (tyBound : ty < 2 ^ 62) : Fits (flagField ty present) where
  id := tyBound
  value := by
    intro val written
    cases present with
    | true => cases written; decide
    | false => cases written

theorem fits_fields (short : tp.ShortIds) : ∀ field ∈ tp.fields isServer, Fits field := by
  have token : ∀ val, tp.statelessResetToken.map tokenBytes = some val → val.length < 2 ^ 62 := by
    intro val written
    obtain ⟨token, _, rfl⟩ := Option.map_eq_some_iff.mp written
    rw [tokenBytes_length]
    decide
  have size : ∀ val, tp.maxDatagramFrameSize.map varint = some val → val.length < 2 ^ 62 := by
    intro val written
    obtain ⟨size, _, rfl⟩ := Option.map_eq_some_iff.mp written
    exact varint_length_lt size
  simp only [fields, List.forall_mem_cons]
  refine ⟨fits_serverField (by decide) short.original, fits_integerField (by decide),
    fits_serverField (by decide) token, ?_⟩
  iterate 9 refine ⟨fits_integerField (by decide), ?_⟩
  refine ⟨fits_flagField (by decide), fits_integerField (by decide),
    fits_option (by decide) short.initial, fits_serverField (by decide) short.retry,
    fits_option (by decide) size, ?_⟩
  exact fun _ member => absurd member List.not_mem_nil

/-- `decode` at the peer gives back what `encode` was given. -/
def Survives (tp : AllTransportParams) (isServer : Bool) (out : List UInt8) : Prop :=
  ∃ bytes, tp.encode isServer out = .ok bytes ∧ decode bytes (!isServer) none = .ok tp

theorem encode_wire (range : tp.InRange) (short : tp.ShortIds) (room : (tp.wire isServer).length ≤ out.length) :
    tp.encode isServer out = .ok (tp.wire isServer) := by
  have fits : (tp.wire isServer).length ≤ (withSlice out).cap := by simpa [withSlice, cap] using room
  have written : tp.encodeParams isServer (withSlice out) =
      .ok () ((withSlice out).append (tp.wire isServer)) := writes_encodeParams range short _ fits
  rw [encode, written]
  simp only [append_written fits]
  simp [withSlice, Octets.written]

theorem decode_wire (range : tp.InRange) (known : tp.unknownParams = none)
    (client : isServer = false → tp.FromClient) (short : tp.ShortIds) :
    decode (tp.wire isServer) (!isServer) none = .ok tp.received := by
  have front : (withSlice (tp.wire isServer)).rest = (tp.fields isServer).flatMap fieldBytes := by
    simp [withSlice, rest, wire]
  have enough : (withSlice (tp.wire isServer)).cap ≤ (tp.wire isServer).length := by
    simp [withSlice, cap]
  have distinct : ([] ++ (tp.fields isServer).map Prod.fst).Nodup :=
    show [0, 1, 2, 3, 4, 5, 6, 7, 8, 9, 10, 11, 12, 14, 15, 16, 32].Nodup by decide
  obtain ⟨last, decoded⟩ := decodeParams_takesAll (takesAll_fields range known client)
    (fits_fields short) distinct front enough
  have unchanged : ({ default with unknownParams := none } : AllTransportParams) = default := rfl
  simp only [decode, Option.map_none, unchanged, decoded]

theorem received_eq_iff (range : tp.InRange) : tp.received = tp ↔ tp.ackDelayExponent ≠ 0 ∧ tp.maxAckDelay ≠ 0 := by
  have positive : tp.maxUdpPayloadSize ≠ 0 := by
    have := range.maxUdpPayloadSize
    omega
  constructor
  · intro same
    have exponent : arrives 0 3 tp.ackDelayExponent = tp.ackDelayExponent := congrArg (·.ackDelayExponent) same
    have delay : arrives 0 25 tp.maxAckDelay = tp.maxAckDelay := congrArg (·.maxAckDelay) same
    constructor
    · intro zero
      rw [zero] at exponent
      cases exponent
    · intro zero
      rw [zero] at delay
      cases delay
  · rintro ⟨exponent, delay⟩
    rw [received, arrives, arrives, arrives, if_pos positive, if_pos exponent, if_pos delay]

theorem encodeBytes_short {bytes : List UInt8} {last : Octets}
    (encoded : encodeBytes ty bytes octets = .ok () last) : bytes.length < 2 ^ 62 := by
  obtain ⟨_, middle, headed, _⟩ := bind_eq_ok encoded
  obtain ⟨_, typed, _, lengthened⟩ := bind_eq_ok headed
  by_contra long
  have beyond : ¬ bytes.length ≤ maxVarInt := by
    rw [maxVarInt]
    omega
  have none : varintLen bytes.length = none := by
    rw [varintLen, if_neg (by omega), if_neg (by omega), if_neg (by omega), if_neg beyond]
  rw [putVarint, none] at lengthened
  cases lengthened

theorem optionalBytes_short {bytes : Option (List UInt8)} {last : Octets}
    (encoded : encodeOption (encodeBytes ty) bytes octets = .ok () last) :
    ∀ val, bytes = some val → val.length < 2 ^ 62 := by
  rintro val rfl
  exact encodeBytes_short encoded

theorem shortIds_of_encode {bytes : List UInt8} (client : isServer = false → tp.FromClient)
    (encoded : tp.encode isServer out = .ok bytes) : tp.ShortIds := by
  rw [encode] at encoded
  cases ran : tp.encodeParams isServer (withSlice out) with
  | error fault last => rw [ran] at encoded; cases encoded
  | ok result last =>
    obtain ⟨_, _, original, rest⟩ := bind_eq_ok ran
    iterate 13 obtain ⟨_, _, _, rest⟩ := bind_eq_ok rest
    obtain ⟨_, _, initial, rest⟩ := bind_eq_ok rest
    obtain ⟨_, _, retry, _⟩ := bind_eq_ok rest
    cases isServer with
    | true =>
      exact ⟨optionalBytes_short original, optionalBytes_short initial, optionalBytes_short retry⟩
    | false =>
      refine ⟨?_, optionalBytes_short initial, ?_⟩
      · rw [(client rfl).originalDestinationConnectionId]
        intro _ absent
        cases absent
      · rw [(client rfl).retrySourceConnectionId]
        intro _ absent
        cases absent

/-- The two parameters that are left out at zero, which is not what the decoder starts
from, are the only ones that change. -/
theorem decode_encode_iff (range : tp.InRange) (known : tp.unknownParams = none)
    (client : isServer = false → tp.FromClient) (room : (tp.wire isServer).length ≤ out.length) :
    tp.Survives isServer out ↔ tp.ackDelayExponent ≠ 0 ∧ tp.maxAckDelay ≠ 0 ∧ tp.ShortIds := by
  constructor
  · rintro ⟨bytes, encoded, decoded⟩
    have short := shortIds_of_encode client encoded
    rw [encode_wire range short room] at encoded
    cases encoded
    rw [decode_wire range known client short] at decoded
    obtain ⟨exponent, delay⟩ := (received_eq_iff range).mp (Except.ok.inj decoded)
    exact ⟨exponent, delay, short⟩
  · rintro ⟨exponent, delay, short⟩
    refine ⟨tp.wire isServer, encode_wire range short room, ?_⟩
    rw [decode_wire range known client short, (received_eq_iff range).mpr ⟨exponent, delay⟩]

def promptClient : AllTransportParams :=
  { default with
    ackDelayExponent := 0
    maxAckDelay := 0
    initialSourceConnectionId := some [1, 2, 3, 4] }

theorem promptClient_inRange : promptClient.InRange := by
  constructor <;> simp [promptClient, default, TransportParams.default]

theorem promptClient_fromClient : promptClient.FromClient := ⟨rfl, rfl, rfl⟩

theorem promptClient_changes :
    ¬ ∀ tp isServer out, InRange tp → tp.unknownParams = none → (isServer = false → FromClient tp) →
      (tp.wire isServer).length ≤ out.length → tp.Survives isServer out := by
  intro survives
  obtain ⟨bytes, encoded, decoded⟩ := survives promptClient false (List.replicate 64 0)
    promptClient_inRange rfl (fun _ => promptClient_fromClient) (by decide +kernel)
  have written : promptClient.encode false (List.replicate 64 0) =
      .ok [3, 4, 128, 0, 255, 247, 15, 4, 1, 2, 3, 4] := by decide +kernel
  rw [written] at encoded
  cases encoded
  have read : (decode [3, 4, 128, 0, 255, 247, 15, 4, 1, 2, 3, 4] true none).toOption.map
      (·.ackDelayExponent) = some 3 := by decide +kernel
  rw [show (!false) = true from rfl] at decoded
  rw [decoded] at read
  cases read

theorem decode_encode_iff_patient : Survives { promptClient with ackDelayExponent := 3, maxAckDelay := 25 } false
      (List.replicate 64 0) := by
  have range : InRange { promptClient with ackDelayExponent := 3, maxAckDelay := 25 } := by
    constructor <;> simp [promptClient, default, TransportParams.default]
  apply (decode_encode_iff range rfl (fun _ => ⟨rfl, rfl, rfl⟩) (by decide +kernel)).mpr
  refine ⟨by decide, by decide, ⟨?_, ?_, ?_⟩⟩
  · intro cid absent
    cases absent
  · intro cid present
    cases present
    decide
  · intro cid absent
    cases absent

end Survives

end Quiche.AllTransportParams
