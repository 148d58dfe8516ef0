import Quiche.Packet.Header

namespace Quiche.Packet.Header

open Data Octets

variable {header : Header} {cid : List UInt8} {version : UInt32} {octets : Octets}

/-- A header that is written with all its fields, in the widths they have. -/
structure Encodable (header : Header) : Prop where
  ty : header.ty ≠ .versionNegotiation
  version : header.version ≠ 0
  dcid : header.dcid.length ≤ maxCidLen
  scid : header.scid.length ≤ maxCidLen
  token : ∀ token ∈ header.token, token.length < 2 ^ 14
  retry : header.ty = .retry → header.token.isSome

section FirstByte

theorem lenBits_exists (header : Header) : ∃ len < 8, header.lenBits = UInt8.ofNat len := by
  have bound := header.pktNumLen_le
  exact ⟨header.pktNumLen - 1, by omega, rfl⟩

theorem shortFirst_short (header : Header) : isLong header.shortFirst = false := by
  obtain ⟨len, bound, bits⟩ := header.lenBits_exists
  have table : ∀ len < 8, isLong ((UInt8.ofNat len &&& ~~~ formBit ||| fixedBit) ||| keyPhaseBit) = false ∧
      isLong ((UInt8.ofNat len &&& ~~~ formBit ||| fixedBit) &&& ~~~ keyPhaseBit) = false := by decide
  rw [shortFirst, bits]
  split
  · exact (table len bound).1
  · exact (table len bound).2

theorem typeBits_exists {ty : PacketType} (listed : ty ≠ .versionNegotiation) (long : ty ≠ .short)
    (nonzero : version ≠ 0) : ∃ bits < 4, typeBits ty = pure (UInt8.ofNat bits) ∧
      ∀ first, (first &&& typeMask) >>> 4 = UInt8.ofNat bits → typeOf first version = pure ty := by
  simp only [typeOf, if_neg nonzero]
  cases ty with
  | short => exact absurd rfl long
  | versionNegotiation => exact absurd rfl listed
  | initial => exact ⟨0, by decide, rfl, fun first same => by rw [same]; rfl⟩
  | zeroRTT => exact ⟨1, by decide, rfl, fun first same => by rw [same]; rfl⟩
  | handshake => exact ⟨2, by decide, rfl, fun first same => by rw [same]; rfl⟩
  | retry => exact ⟨3, by decide, rfl, fun first same => by rw [same]; rfl⟩

theorem longFirst_type (encodable : header.Encodable) (long : header.ty ≠ .short) :
    ∃ bits, typeBits header.ty = pure bits ∧ isLong (header.longFirst bits) = true ∧
      typeOf (header.longFirst bits) header.version = pure header.ty := by
  have table : ∀ len < 8, ∀ bits < 4,
      isLong (UInt8.ofNat len ||| (formBit ||| fixedBit ||| UInt8.ofNat bits <<< 4)) = true ∧
      ((UInt8.ofNat len ||| (formBit ||| fixedBit ||| UInt8.ofNat bits <<< 4)) &&& typeMask) >>> 4 =
        UInt8.ofNat bits := by decide
  obtain ⟨len, lenBound, lenBits⟩ := header.lenBits_exists
  obtain ⟨bits, bitsBound, typed, read⟩ := typeBits_exists encodable.ty long encodable.version
  obtain ⟨form, masked⟩ := table len lenBound bits bitsBound
  rw [← lenBits] at form masked
  exact ⟨UInt8.ofNat bits, typed, form, read _ masked⟩

end FirstByte

section Cids

def cidBytes (cid : List UInt8) : List UInt8 := bigEndian 1 cid.length ++ cid

theorem appends_putCid (short : cid.length ≤ maxCidLen) : Appends (putCid cid) (cidBytes cid) () := by
  have length : (UInt8.ofNat cid.length).toNat = cid.length := by
    rw [maxCidLen] at short
    simp only [UInt8.toNat_ofNat']
    omega
  rw [putCid, length]
  exact (appends_putU 1 cid.length).bind (appends_putBytes cid)

theorem reads_getCid (version : UInt32) (short : cid.length ≤ maxCidLen) :
    Reads cursor (getCid version) (cidBytes cid) cid := by
  have byte : cid.length < 256 ^ 1 := Nat.lt_of_le_of_lt short (by decide)
  apply (reads_getU_of_lt byte).bind
  rw [if_neg (fun long => Nat.not_lt.mpr short long.2)]
  exact reads_getBytes cid

end Cids

section Long

def invariantBytes (header : Header) : List UInt8 :=
  bigEndian 4 header.version.toNat ++ (cidBytes header.dcid ++ cidBytes header.scid)

def tokenBytes (header : Header) : List UInt8 :=
  match header.ty with
  | .initial => varint (header.token.getD []).length ++ header.token.getD []
  | .retry => header.token.getD []
  | _ => []

theorem appends_putToken (encodable : header.Encodable) : Appends header.putToken header.tokenBytes () := by
  rw [putToken, tokenBytes]
  cases ty : header.ty with
  | short | versionNegotiation | zeroRTT | handshake => exact emits_pure ()
  | initial =>
    cases held : header.token with
    | none => exact appends_putVarint (by decide)
    | some token =>
      have short := encodable.token token held
      exact (appends_putVarint (by omega)).bind (appends_putBytes token)
  | retry =>
    have present := encodable.retry ty
    cases held : header.token with
    | none => simp [held] at present
    | some token => exact appends_putBytes token

def tokenBack (header : Header) : Option (List UInt8) :=
  match header.ty with
  | .initial | .retry => some (header.token.getD [])
  | _ => none

theorem getRetryToken_run {token tag : List UInt8} (front : octets.rest = token ++ tag)
    (tagged : tag.length = retryTagLen) : getRetryToken octets = .ok token (octets.advance token.length) := by
  have cap : octets.cap = token.length + retryTagLen := by rw [← rest_length, front, List.length_append, tagged]
  have enough : ¬ octets.cap < retryTagLen := by omega
  have length : octets.cap - retryTagLen = token.length := by omega
  have taken : getBytes token.length octets = .ok token (octets.advance token.length) :=
    reads_getBytes token octets tag front
  rw [← taken, ← length]
  exact congrFun (if_neg enough) octets

section

variable (encodable : header.Encodable)

include encodable

theorem getRest_run (long : header.ty ≠ .short) {suffix : List UInt8}
    (front : octets.rest = header.tokenBytes ++ suffix) (tagged : header.ty = .retry → suffix.length = retryTagLen) :
    getRest header.ty octets = .ok (header.tokenBack, none) (octets.advance header.tokenBytes.length) := by
  rw [tokenBytes] at front ⊢
  rw [tokenBack]
  cases ty : header.ty with
  | short => exact absurd ty long
  | versionNegotiation => exact absurd ty encodable.ty
  | zeroRTT | handshake =>
    have read : Reads cursor (getRest .handshake) [] (none, none) := reads_pure (none, none)
    exact read octets octets.rest rfl
  | initial =>
    rw [ty] at front
    have bound : (header.token.getD []).length < 2 ^ 62 := by
      cases held : header.token with
      | none => decide
      | some token => exact Nat.lt_trans (encodable.token token held) (by decide)
    have read := (reads_getBytesWithVarintLength bound).map fun token => (some token, (none : Option (List UInt32)))
    exact read octets suffix front
  | retry =>
    rw [ty] at front
    exact bind_ok (getRetryToken_run front (tagged ty)) _

theorem appends_invariants {next : Action Unit} {output : List UInt8}
    (rest : Appends next output ()) :
    Appends (do putU32 header.version.toNat; putCid header.dcid; putCid header.scid; next)
      (header.invariantBytes ++ output) () := by
  rw [invariantBytes, List.append_assoc, List.append_assoc]
  apply (appends_putU 4 header.version.toNat).bind
  apply (appends_putCid encodable.dcid).bind
  exact (appends_putCid encodable.scid).bind rest

theorem reads_getInvariants {first : UInt8}
    (typed : typeOf first header.version = pure header.ty) : Reads cursor (getInvariants first) header.invariantBytes
      (header.ty, header.version, header.dcid, header.scid) := by
  have bound : header.version.toNat < 256 ^ 4 := header.version.toNat_lt
  have back : UInt32.ofNat header.version.toNat = header.version := UInt32.ofNat_toNat
  apply (reads_getU_of_lt bound).bind
  simp only [back, typed, pure_bind]
  apply (reads_getCid header.version encodable.dcid).bind
  exact (reads_getCid header.version encodable.scid).bind_pure rfl

theorem fromBytes_long (long : header.ty ≠ .short) {first : UInt8}
    (form : isLong first = true) (typed : typeOf first header.version = pure header.ty) {dcidLen : Nat}
    {suffix : List UInt8} (tagged : header.ty = .retry → suffix.length = retryTagLen)
    (front : octets.rest = bigEndian 1 first.toNat ++ (header.invariantBytes ++ (header.tokenBytes ++ suffix))) :
    fromBytes dcidLen octets = .ok (parsed header.ty header.version header.dcid header.scid header.tokenBack none)
        (octets.advance (bigEndian 1 first.toNat ++ (header.invariantBytes ++ header.tokenBytes)).length) := by
  have byte : first.toNat < 256 ^ 1 := first.toNat_lt
  have back : UInt8.ofNat first.toNat = first := UInt8.ofNat_toNat
  have firstRead := reads_getU_of_lt byte octets _ front
  have behindFirst := cursor.rest_behind front
  have invariantsRead := reads_getInvariants encodable typed _ _ behindFirst
  have behindInvariants := cursor.rest_behind behindFirst
  have tokenRead := getRest_run encodable long behindInvariants tagged
  have place : cursor.advance header.tokenBytes.length (cursor.advance header.invariantBytes.length
      (cursor.advance (bigEndian 1 first.toNat).length octets)) =
        cursor.advance (bigEndian 1 first.toNat ++ (header.invariantBytes ++ header.tokenBytes)).length octets := by
    rw [cursor.advance_advance, cursor.advance_advance, List.length_append, List.length_append]
  rw [fromBytes]
  refine (bind_ok firstRead _).trans ?_
  rw [back, if_neg (by rw [form]; decide)]
  refine (bind_ok invariantsRead _).trans ((bind_ok tokenRead _).trans ?_)
  exact congrArg (EStateM.Result.ok _) place

theorem long_exists (long : header.ty ≠ .short) :
    ∃ bytes, Appends header.toBytes bytes () ∧
      ∀ (dcidLen : Nat) suffix, (header.ty = .retry → suffix.length = retryTagLen) →
        fromBytes dcidLen (withSlice (bytes ++ suffix)) =
          .ok (parsed header.ty header.version header.dcid header.scid header.tokenBack none)
            ((withSlice (bytes ++ suffix)).advance bytes.length) := by
  obtain ⟨bits, typed, form, read⟩ := longFirst_type encodable long
  refine ⟨bigEndian 1 (header.longFirst bits).toNat ++ (header.invariantBytes ++ header.tokenBytes), ?_, ?_⟩
  · rw [toBytes, if_neg long, typed, pure_bind]
    apply (appends_putU 1 _).bind
    exact appends_invariants encodable (appends_putToken encodable)
  · intro dcidLen suffix tagged
    apply fromBytes_long encodable long form read tagged
    rw [List.append_assoc, List.append_assoc]
    rfl

end

end Long

section Short

theorem appends_short (short : header.ty = .short) :
    Appends header.toBytes (bigEndian 1 header.shortFirst.toNat ++ header.dcid) () := by
  rw [toBytes, if_pos short]
  exact (appends_putU 1 _).bind (appends_putBytes header.dcid)

theorem reads_shortForm {first : UInt8} (form : isLong first = false) (dcid : List UInt8) :
    Reads cursor (fromBytes dcid.length) (bigEndian 1 first.toNat ++ dcid) (parsed .short 0 dcid [] none none) := by
  have byte : first.toNat < 256 ^ 1 := first.toNat_lt
  have back : UInt8.ofNat first.toNat = first := UInt8.ofNat_toNat
  apply (reads_getU_of_lt byte).bind
  rw [back, if_pos (by rw [form]; decide)]
  exact (reads_getBytes dcid).bind_pure rfl

theorem reads_short (header : Header) :
    Reads cursor (fromBytes header.dcid.length) (bigEndian 1 header.shortFirst.toNat ++ header.dcid)
      (parsed .short 0 header.dcid [] none none) := reads_shortForm (shortFirst_short header) header.dcid

end Short

section Bounds

theorem getVersions_safe {fuel : Nat} {list : List UInt32} (enough : octets.cap < fuel) :
    ∀ failure last, getVersions fuel list octets = .error failure last → failure ≠ .panic := by
  induction fuel generalizing list octets with
  | zero => exact absurd enough (Nat.not_lt_zero _)
  | succ fuel ih =>
    intro failure last failed
    by_cases more : octets.cap > 0
    · have turn : getVersions (fuel + 1) list octets =
          (getU 4 >>= fun version => getVersions fuel (list ++ [UInt32.ofNat version])) octets :=
        congrFun (if_pos more) octets
      rw [turn] at failed
      rcases getU_cases 4 octets with ⟨_, short⟩ | ⟨_, version, read⟩
      · rw [bind_error short] at failed
        cases failed
        simp
      · rw [bind_ok read] at failed
        have fewer : (octets.advance 4).cap < fuel := by
          rw [advance_cap]
          omega
        exact ih fewer failure last failed
    · have stopped : getVersions (fuel + 1) list octets = .ok list octets := congrFun (if_neg more) octets
      rw [stopped] at failed
      cases failed

theorem ensures_getVersions :
    Ensures Fault.panic (do getVersions ((← get).cap + 1) [] : Action (List UInt32)) fun _ => True where
  returns := fun _ _ _ _ => trivial
  fails := fun octets => getVersions_safe (Nat.lt_succ_self octets.cap)

theorem ensures_getCid (version : UInt32) :
    Ensures Fault.panic (getCid version) fun cid => versionIsSupported version → cid.length ≤ maxCidLen := by
  apply (below_getU 1).bind
  intro cidLen _
  apply Ensures.ite
  · exact fun _ => ensures_throw (by simp) _
  · intro listed
    apply (ensures_getBytes cidLen).mono
    intro cid length supported
    rw [length]
    exact Nat.not_lt.mp fun long => listed ⟨supported, long⟩

theorem ensures_typeOf (first : UInt8) (version : UInt32) :
    Ensures Fault.panic (typeOf first version) fun _ => True := by
  apply Ensures.ite
  · exact fun _ => ensures_pure trivial
  · intro _
    split
    all_goals first
      | exact ensures_pure trivial
      | exact ensures_throw (by simp) _

/-- The identifiers are not too long for a version that is supported. -/
def Limited (version : UInt32) (dcid scid : List UInt8) : Prop :=
  versionIsSupported version → dcid.length ≤ maxCidLen ∧ scid.length ≤ maxCidLen

theorem ensures_getInvariants (first : UInt8) :
    Ensures Fault.panic (getInvariants first) fun (_, version, dcid, scid) => Limited version dcid scid := by
  apply (below_getU 4).bind
  intro version _
  apply (ensures_typeOf first _).bind
  intro ty _
  apply (ensures_getCid _).bind
  intro dcid dcidLimited
  apply (ensures_getCid _).bind
  intro scid scidLimited
  exact ensures_pure fun supported => ⟨dcidLimited supported, scidLimited supported⟩

theorem ensures_getRest (ty : PacketType) : Ensures Fault.panic (getRest ty) fun _ => True := by
  cases ty with
  | short | handshake | zeroRTT => exact ensures_pure trivial
  | initial =>
    apply (below_getVarint.bind fun len _ => ensures_getBytes len |>.mono fun _ _ => trivial).bind
    exact fun token _ => ensures_pure trivial
  | retry =>
    have token : Ensures Fault.panic getRetryToken fun _ => True := by
      apply ensures_get.bind
      intro octets _
      apply Ensures.ite
      · exact fun _ => ensures_throw (by simp) _
      · exact fun _ => (ensures_getBytes _).mono fun _ _ => trivial
    exact token.bind fun token _ => ensures_pure trivial
  | versionNegotiation => exact ensures_getVersions.map fun _ _ => trivial

theorem ensures_fromBytes (dcidLen : Nat) :
    Ensures Fault.panic (fromBytes dcidLen) fun parsed => Limited parsed.version parsed.dcid parsed.scid := by
  apply (below_getU 1).bind
  intro first _
  apply Ensures.ite
  · intro _
    apply (ensures_getBytes dcidLen).bind
    exact fun dcid _ => ensures_pure fun supported => absurd supported (by decide : ¬ versionIsSupported 0 = true)
  · intro _
    apply (ensures_getInvariants _).bind
    intro (ty, version, dcid, scid) limited
    apply (ensures_getRest ty).bind
    exact fun _ _ => ensures_pure limited

end Bounds

/-- The fields that the header type has are the same. -/
structure Carried (header parsed : Header) : Prop where
  ty : parsed.ty = header.ty
  dcid : parsed.dcid = header.dcid
  version : header.ty ≠ .short → parsed.version = header.version
  scid : header.ty ≠ .short → parsed.scid = header.scid
  token : header.ty = .initial ∨ header.ty = .retry → parsed.token = some (header.token.getD [])

theorem headers_round_trip : (∀ header : Header, header.Encodable → ∃ bytes, Appends header.toBytes bytes () ∧
      ∀ suffix, (header.ty = .retry → suffix.length = retryTagLen) →
        ∃ parsed after, fromBytes header.dcid.length (withSlice (bytes ++ suffix)) = .ok parsed after ∧
          after.off = bytes.length ∧ after.rest = suffix ∧ header.Carried parsed) ∧
    ∀ dcidLen octets, (∀ after, fromBytes dcidLen octets ≠ .error .panic after) ∧
      ∀ parsed after, fromBytes dcidLen octets = .ok parsed after → versionIsSupported parsed.version →
        parsed.dcid.length ≤ 20 ∧ parsed.scid.length ≤ 20 := by
  constructor
  · intro header encodable
    have place : ∀ bytes suffix : List UInt8,
        ((withSlice (bytes ++ suffix)).advance bytes.length).off = bytes.length ∧
          ((withSlice (bytes ++ suffix)).advance bytes.length).rest = suffix := by
      intro bytes suffix
      constructor
      · simp [withSlice, advance]
      · have front : cursor.rest (withSlice (bytes ++ suffix)) = bytes ++ suffix := rfl
        exact cursor.rest_behind front
    by_cases short : header.ty = .short
    · refine ⟨_, appends_short short, fun suffix _ => ?_⟩
      obtain ⟨off, rest⟩ := place (bigEndian 1 header.shortFirst.toNat ++ header.dcid) suffix
      have read := reads_short header (withSlice (_ ++ suffix)) suffix rfl
      refine ⟨_, _, read, off, rest, short.symm, rfl, fun long => absurd short long, fun long => absurd short long, ?_⟩
      simp [short]
    · obtain ⟨bytes, appends, read⟩ := long_exists encodable short
      refine ⟨bytes, appends, fun suffix tagged => ?_⟩
      obtain ⟨off, rest⟩ := place bytes suffix
      refine ⟨_, _, read _ suffix tagged, off, rest, rfl, rfl, fun _ => rfl, fun _ => rfl, ?_⟩
      intro bearing
      show header.tokenBack = _
      rw [tokenBack]
      rcases bearing with initial | retry
      · rw [initial]
      · rw [retry]
  · intro dcidLen octets
    constructor
    · intro after failed
      exact (ensures_fromBytes dcidLen).fails octets _ after failed rfl
    · intro parsed after returned
      exact (ensures_fromBytes dcidLen).returns octets parsed after returned

def initialHeader : Header where
  ty := .initial
  version := protocolVersion
  dcid := [0xba, 0xba]
  scid := [0xbb]
  pktNum := 0
  pktNumLen := 1
  token := none
  versions := none
  keyPhase := false
  pktNumLen_le := by decide

theorem headers_round_trip_initial : ∃ bytes, Appends initialHeader.toBytes bytes () ∧
      ∃ parsed after, fromBytes initialHeader.dcid.length (withSlice (bytes ++ [0, 0, 0])) = .ok parsed after ∧
        after.off = bytes.length ∧ after.rest = [0, 0, 0] ∧ initialHeader.Carried parsed := by
  have encodable : initialHeader.Encodable :=
    ⟨by decide, by decide, by decide, by decide, (fun _ held => by cases held), by decide⟩
  obtain ⟨bytes, appends, read⟩ := headers_round_trip.1 initialHeader encodable
  exact ⟨bytes, appends, read [0, 0, 0] (by decide)⟩

def applicationHeader : Header where
  ty := .short
  version := protocolVersion
  dcid := [0xba]
  scid := [0xbb]
  pktNum := 0
  pktNumLen := 1
  token := none
  versions := none
  keyPhase := false
  pktNumLen_le := by decide

theorem short_header_version_lost :
    applicationHeader.Encodable ∧ ∃ out parsed after, applicationHeader.toBytes (withSlice [0, 0]) = .ok () out ∧
        fromBytes applicationHeader.dcid.length (withSlice out.written) = .ok parsed after ∧
          parsed.version ≠ applicationHeader.version ∧ parsed.scid ≠ applicationHeader.scid := by
  refine ⟨⟨by decide, by decide, by decide, by decide, by decide, by decide⟩, _, _, _, rfl, rfl, ?_, ?_⟩
  · decide
  · decide

end Quiche.Packet.Header
