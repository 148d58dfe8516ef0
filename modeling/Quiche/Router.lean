import Mathlib.Data.List.Lex
import Mathlib.Data.Prod.Lex
import Quiche.Data.Lookup
import Quiche.Packet.Header.RoundTrip

namespace Quiche

open Data

def u64Sz : Nat := 8

def maxConnIdLen : Nat := maxCidLen

def maxConnIdQuads : Nat := (maxConnIdLen + u64Sz - 1) / u64Sz

def connIdUsableLen : Nat := min (maxConnIdQuads * u64Sz - 1) (min maxConnIdLen 255)

/-- A connection ID as a key: the bytes themselves, or packed into words with the length in the last byte. -/
inductive CidOwned where
  | generic (id : List UInt8)
  | optimized (cid : Vector UInt64 maxConnIdQuads)

namespace CidOwned

/-- The derived order: by variant, then lexicographic. -/
def order : CidOwned → Nat ×ₗ List Nat
  | generic id => toLex (0, id.map UInt8.toNat)
  | optimized cid => toLex (1, cid.toList.map UInt64.toNat)

theorem order_injective : Function.Injective order := by
  intro left right same
  have parts := Prod.mk.inj (toLex.injective same)
  cases left with
  | generic id =>
    cases right with
    | generic other =>
      have bytes := List.map_injective_iff.mpr (fun _ _ => UInt8.toNat_inj.mp) parts.2
      rw [bytes]
    | optimized cid => cases parts.1
  | optimized cid =>
    cases right with
    | generic id => cases parts.1
    | optimized other =>
      have words := List.map_injective_iff.mpr (fun _ _ => UInt64.toNat_inj.mp) parts.2
      rw [Vector.toList_inj.mp words]

instance : LinearOrder CidOwned := .lift' order order_injective

def chunks (size : Nat) (bytes : List UInt8) : List (List UInt8) :=
  (List.range ((bytes.length + size - 1) / size)).map fun index => (bytes.drop (index * size)).take size

def word (chunk : List UInt8) : UInt64 :=
  if chunk.length = u64Sz then UInt64.ofNat (ofLittleEndian chunk)
  else UInt64.ofNat (ofLittleEndian (chunk ++ List.replicate (u64Sz - chunk.length) 0))

/-- The assignments `cid[i] = v`, which panic behind the array. -/
def place (cid : Vector UInt64 maxConnIdQuads) (index : Nat) : List UInt64 → Option (Vector UInt64 maxConnIdQuads)
  | [] => some cid
  | value :: values =>
    if inside : index < maxConnIdQuads then place (cid.set index value) (index + 1) values
    else none

/-- `last_mut` -/
def lastQuad : Fin maxConnIdQuads := ⟨maxConnIdQuads - 1, by decide⟩

/-- `From<&ConnectionId>` -/
def ofConnectionId (value : List UInt8) : Option CidOwned :=
  if value.length > connIdUsableLen then some (generic value)
  else do
    let cid ← place (.replicate maxConnIdQuads 0) 0 ((chunks u64Sz value).map word)
    some (optimized (cid.set lastQuad (cid[lastQuad] ||| UInt64.ofNat value.length <<< 56)))

variable {value left right : List UInt8} {key : CidOwned}

theorem word_toNat {chunk : List UInt8} (short : chunk.length ≤ u64Sz) : (word chunk).toNat = ofLittleEndian chunk := by
  have bounded : ofLittleEndian chunk < 2 ^ 64 := by
    have value := ofLittleEndian_lt chunk
    have power := Nat.pow_le_pow_right (show 0 < 256 by decide) short
    exact Nat.lt_of_lt_of_le value (power.trans (by decide))
  rw [word, ofLittleEndian_append_zeros, ite_self]
  exact UInt64.toNat_ofNat_of_lt' bounded

theorem place_spec {cid : Vector UInt64 maxConnIdQuads} {index : Nat} {values : List UInt64}
    (room : index + values.length ≤ maxConnIdQuads) :
    ∃ placed, place cid index values = some placed ∧ ∀ (slot : Nat) (inside : slot < maxConnIdQuads),
      placed[slot] = if slot < index then cid[slot] else (values[slot - index]?).getD cid[slot] := by
  induction values generalizing cid index with
  | nil => exact ⟨cid, rfl, fun slot inside => by simp⟩
  | cons value values ih =>
    rw [List.length_cons] at room
    have inside : index < maxConnIdQuads := by omega
    obtain ⟨placed, rest, each⟩ := @ih (cid.set index value) (index + 1) (by omega)
    refine ⟨placed, by rw [place, dif_pos inside, rest], fun slot bound => ?_⟩
    rw [each slot bound]
    rcases Nat.lt_trichotomy slot index with before | rfl | after
    · rw [if_pos (by omega), if_pos before, Vector.getElem_set_ne _ _ (by omega)]
    · rw [if_pos (by omega), if_neg (by omega), Vector.getElem_set_self, Nat.sub_self]
      rfl
    · obtain ⟨distance, same⟩ : ∃ distance, slot - index = distance + 1 := ⟨slot - index - 1, by omega⟩
      have next : slot - (index + 1) = distance := by omega
      rw [if_neg (by omega), if_neg (by omega), same, next, List.getElem?_cons_succ,
        Vector.getElem_set_ne _ _ (by omega)]

theorem chunks_getElem? (value : List UInt8) (slot : Nat) :
    (((chunks u64Sz value).map word)[slot]?).getD 0 = word ((value.drop (slot * u64Sz)).take u64Sz) := by
  rw [chunks, List.map_map, List.getElem?_map]
  by_cases inside : slot < (value.length + u64Sz - 1) / u64Sz
  · rw [List.getElem?_range inside]
    rfl
  · have beyond : value.length ≤ slot * u64Sz := by
      rw [u64Sz] at *
      omega
    rw [List.getElem?_eq_none (by simpa using inside), List.drop_eq_nil_of_le beyond]
    rfl

/-- The words hold the bytes of the identifier, and its length in the last byte. -/
structure Packs (value : List UInt8) (cid : Vector UInt64 maxConnIdQuads) : Prop where
  first : cid[0].toNat = ofLittleEndian (value.take 8)
  second : cid[1].toNat = ofLittleEndian ((value.drop 8).take 8)
  third : cid[2].toNat = value.length * 2 ^ 56 + ofLittleEndian ((value.drop 16).take 8)

theorem ofConnectionId_short (short : value.length ≤ connIdUsableLen) :
    ∃ cid, ofConnectionId value = some (optimized cid) ∧ Packs value cid := by
  have twenty : value.length ≤ 20 := short
  have few : 0 + ((chunks u64Sz value).map word).length ≤ maxConnIdQuads := by
    have quads : maxConnIdQuads = 3 := rfl
    rw [List.length_map, chunks, List.length_map, List.length_range, u64Sz, quads]
    omega
  obtain ⟨cid, placed, each⟩ := @place_spec (.replicate maxConnIdQuads 0) _ _ few
  have words : ∀ (slot : Nat) (inside : slot < maxConnIdQuads),
      cid[slot].toNat = ofLittleEndian ((value.drop (slot * 8)).take 8) := by
    intro slot inside
    rw [each slot inside, if_neg (Nat.not_lt_zero slot), Nat.sub_zero, Vector.getElem_replicate, chunks_getElem?]
    exact word_toNat (List.length_take_le _ _)
  refine ⟨_, by rw [ofConnectionId, if_neg (Nat.not_lt.mpr short), placed]; rfl, ?_⟩
  constructor
  · rw [Vector.getElem_set_ne _ _ (by decide)]
    exact words 0 (by decide)
  · rw [Vector.getElem_set_ne _ _ (by decide)]
    exact words 1 (by decide)
  · have remainder := ofLittleEndian_lt ((value.drop 16).take 8)
    have four : ((value.drop 16).take 8).length ≤ 4 := by
      rw [List.length_take, List.length_drop]
      omega
    have low := Nat.lt_of_lt_of_le remainder (Nat.pow_le_pow_right (by decide) four)
    have tag : (UInt64.ofNat value.length <<< 56).toNat = value.length <<< 56 := by
      have small : value.length < 2 ^ 64 := by omega
      have shift : (56 : UInt64).toNat % 64 = 56 := rfl
      rw [UInt64.toNat_shiftLeft, UInt64.toNat_ofNat_of_lt' small, shift, Nat.shiftLeft_eq]
      exact Nat.mod_eq_of_lt (by omega)
    have tagged : (cid[lastQuad] ||| UInt64.ofNat value.length <<< 56).toNat =
        value.length * 2 ^ 56 + ofLittleEndian ((value.drop 16).take 8) := by
      have plain : cid[lastQuad].toNat = ofLittleEndian ((value.drop 16).take 8) := words 2 (by decide)
      rw [UInt64.toNat_or, tag, Nat.or_comm, plain, ← Nat.shiftLeft_add_eq_or_of_lt (Nat.lt_trans low (by decide)),
        Nat.shiftLeft_eq]
    have replaced : (cid.set lastQuad (cid[lastQuad] ||| UInt64.ofNat value.length <<< 56))[lastQuad] =
        cid[lastQuad] ||| UInt64.ofNat value.length <<< 56 := Vector.getElem_set_self _
    exact (congrArg UInt64.toNat replaced).trans tagged

theorem Packs.injective {cid : Vector UInt64 maxConnIdQuads} (leftPacks : Packs left cid) (rightPacks : Packs right cid)
    (leftShort : left.length ≤ connIdUsableLen) (rightShort : right.length ≤ connIdUsableLen) : left = right := by
  have leftTwenty : left.length ≤ 20 := leftShort
  have rightTwenty : right.length ≤ 20 := rightShort
  have bounded : ∀ value : List UInt8, value.length ≤ 20 → ofLittleEndian ((value.drop 16).take 8) < 2 ^ 56 := by
    intro value twenty
    have four : ((value.drop 16).take 8).length ≤ 4 := by
      rw [List.length_take, List.length_drop]
      omega
    exact Nat.lt_of_lt_of_le (ofLittleEndian_lt _) ((Nat.pow_le_pow_right (by decide) four).trans (by decide))
  have leftLow := bounded left leftTwenty
  have rightLow := bounded right rightTwenty
  have thirds := leftPacks.third.symm.trans rightPacks.third
  have length : left.length = right.length := by omega
  have parts : ∀ start, ofLittleEndian ((left.drop start).take 8) = ofLittleEndian ((right.drop start).take 8) →
      (left.drop start).take 8 = (right.drop start).take 8 := by
    intro start same
    exact ofLittleEndian_inj (by rw [List.length_take, List.length_take, List.length_drop, List.length_drop, length]) same
  have whole : ∀ value : List UInt8, value.length ≤ 20 →
      value = (value.drop 0).take 8 ++ ((value.drop 8).take 8 ++ (value.drop 16).take 8) := by
    intro value twenty
    have last : (value.drop 16).take 8 = value.drop 16 := by
      rw [List.take_of_length_le]
      rw [List.length_drop]
      omega
    have middle := List.take_append_drop 8 (value.drop 8)
    rw [List.drop_drop] at middle
    rw [last, middle, List.drop_zero, List.take_append_drop]
  rw [whole left leftTwenty, whole right rightTwenty, parts 0 (leftPacks.first.symm.trans rightPacks.first),
    parts 8 (leftPacks.second.symm.trans rightPacks.second), parts 16 (by omega)]

theorem ofConnectionId_exists (value : List UInt8) : ∃ key, ofConnectionId value = some key := by
  by_cases short : value.length ≤ connIdUsableLen
  · obtain ⟨cid, packed, _⟩ := ofConnectionId_short short
    exact ⟨_, packed⟩
  · exact ⟨_, if_pos (Nat.lt_of_not_le short)⟩

theorem ofConnectionId_injective (leftKey : ofConnectionId left = some key) (rightKey : ofConnectionId right = some key) :
    left = right := by
  by_cases leftShort : left.length ≤ connIdUsableLen
  · obtain ⟨cid, leftPacked, leftPacks⟩ := ofConnectionId_short leftShort
    by_cases rightShort : right.length ≤ connIdUsableLen
    · obtain ⟨other, rightPacked, rightPacks⟩ := ofConnectionId_short rightShort
      cases leftPacked.symm.trans leftKey
      cases rightPacked.symm.trans rightKey
      exact leftPacks.injective rightPacks leftShort rightShort
    · have boxed : ofConnectionId right = some (generic right) := if_pos (Nat.lt_of_not_le rightShort)
      cases leftPacked.symm.trans leftKey
      cases boxed.symm.trans rightKey
  · have leftBoxed : ofConnectionId left = some (generic left) := if_pos (Nat.lt_of_not_le leftShort)
    cases leftBoxed.symm.trans leftKey
    by_cases rightShort : right.length ≤ connIdUsableLen
    · obtain ⟨other, rightPacked, _⟩ := ofConnectionId_short rightShort
      cases rightPacked.symm.trans rightKey
    · have rightBoxed : ofConnectionId right = some (generic right) := if_pos (Nat.lt_of_not_le rightShort)
      cases rightBoxed.symm.trans rightKey
      rfl

end CidOwned

structure InitialQuicConnection (Sender : Type) where
  id : Nat
  incomingEvSender : Sender
deriving DecidableEq

structure ConnectionMap (Sender : Type) where
  quicIdMap : OrderedMap CidOwned (Nat × Sender)
  connMap : OrderedMap Nat Sender

open Octets Packet

/-- What the router does with an incoming packet: it hands it to a connection, fails, or goes on with it as
the first packet of a connection. -/
inductive Routed (Sender : Type) where
  | existing (sender : Sender)
  | failedToParse
  | other (error : Error)
  | initial (hdr : Header)

def shortDcid (buf : List UInt8) : Option (List UInt8) :=
  match buf with
  | [] => none
  | first :: rest =>
    if first >>> 7 = 0 ∧ maxConnIdLen ≤ rest.length then some (rest.take maxConnIdLen)
    else none

inductive ConnectionMapOp (Sender : Type) where
  | insert (cid : List UInt8) (conn : InitialQuicConnection Sender)
  | mapCid (cid : List UInt8) (conn : InitialQuicConnection Sender)
  | unmapCid (cid : List UInt8)
  | remove (cid : List UInt8)

namespace ConnectionMap

variable {Sender : Type}

def default_ : ConnectionMap Sender := ⟨.empty, .empty⟩

def insert (conns : ConnectionMap Sender) (cid : List UInt8) (conn : InitialQuicConnection Sender) :
    Option (ConnectionMap Sender) := do
  let connMap := conns.connMap.insert conn.id conn.incomingEvSender
  let key ← CidOwned.ofConnectionId cid
  some ⟨conns.quicIdMap.insert key (conn.id, conn.incomingEvSender), connMap⟩

def remove (conns : ConnectionMap Sender) (cid : List UInt8) : Option (ConnectionMap Sender) := do
  let key ← CidOwned.ofConnectionId cid
  match conns.quicIdMap.get? key with
  | some (id, _) => some ⟨conns.quicIdMap.remove key, conns.connMap.remove id⟩
  | none => some { conns with quicIdMap := conns.quicIdMap.remove key }

def mapCid (conns : ConnectionMap Sender) (cid : List UInt8) (conn : InitialQuicConnection Sender) :
    Option (ConnectionMap Sender) :=
  match conns.connMap.get? conn.id with
  | some evSender => do
    let key ← CidOwned.ofConnectionId cid
    some { conns with quicIdMap := conns.quicIdMap.insert key (conn.id, evSender) }
  | none => some conns

def unmapCid (conns : ConnectionMap Sender) (cid : List UInt8) : Option (ConnectionMap Sender) := do
  let key ← CidOwned.ofConnectionId cid
  some { conns with quicIdMap := conns.quicIdMap.remove key }

/-- Both branches of the source run the same code. -/
def get (conns : ConnectionMap Sender) (cid : List UInt8) : Option (Option Sender) := do
  let key ← CidOwned.ofConnectionId cid
  some ((conns.quicIdMap.get? key).map Prod.snd)

def step (conns : ConnectionMap Sender) : ConnectionMapOp Sender → Option (ConnectionMap Sender)
  | .insert cid conn => conns.insert cid conn
  | .mapCid cid conn => conns.mapCid cid conn
  | .unmapCid cid => conns.unmapCid cid
  | .remove cid => conns.remove cid

def machine (Sender : Type) : Machine (ConnectionMap Sender) (ConnectionMapOp Sender) := ⟨step⟩

def sendTo (conns : ConnectionMap Sender) (dcid : List UInt8) (onward : Option (Routed Sender)) :
    Option (Routed Sender) :=
  match conns.get dcid with
  | some (some sender) => some (.existing sender)
  | some none => onward
  | none => none

/-- `Header::from_slice` and the lookup of its destination; `none` is a panic. -/
def routeHeader (conns : ConnectionMap Sender) (buf : List UInt8) : Option (Routed Sender) :=
  match Header.fromBytes maxConnIdLen (withSlice buf) with
  | .ok hdr _ => conns.sendTo hdr.dcid (some (.initial hdr))
  | .error (.error .bufferTooShort) _ => some .failedToParse
  | .error (.error .invalidPacket) _ => some .failedToParse
  | .error (.error error) _ => some (.other error)
  | .error .panic _ => none

/-- `on_incoming`, up to the handling of initial packets. -/
def onIncoming (conns : ConnectionMap Sender) (buf : List UInt8) : Option (Routed Sender) :=
  match shortDcid buf with
  | some dcid => conns.sendTo dcid (conns.routeHeader buf)
  | none => conns.routeHeader buf

variable {conns : ConnectionMap Sender} {buf dcid : List UInt8}

theorem shift_eq_zero_iff (first : UInt8) : first >>> 7 = 0 ↔ Header.isLong first = false := by
  have table : ∀ value < 256, UInt8.ofNat value >>> 7 = 0 ↔ Header.isLong (UInt8.ofNat value) = false := by
    decide +kernel
  have bounded := table first.toNat first.toNat_lt
  rwa [UInt8.ofNat_toNat] at bounded

theorem fromBytes_of_shortDcid (short : shortDcid buf = some dcid) :
    ∃ after, Header.fromBytes maxConnIdLen (withSlice buf) = .ok (Header.parsed .short 0 dcid [] none none) after := by
  cases buf with
  | nil => cases short
  | cons first rest =>
    rw [shortDcid] at short
    split at short
    · rename_i admitted
      obtain ⟨form, enough⟩ := admitted
      cases short
      have length : (rest.take maxConnIdLen).length = maxConnIdLen := by
        rw [List.length_take, Nat.min_eq_left enough]
      have read := Header.reads_shortForm ((shift_eq_zero_iff first).mp form) (rest.take maxConnIdLen)
      have front : (withSlice (first :: rest)).rest =
          (bigEndian 1 first.toNat ++ rest.take maxConnIdLen) ++ rest.drop maxConnIdLen := by
        simp [withSlice, Octets.rest, bigEndian]
      rw [length] at read
      exact ⟨_, read _ _ front⟩
    · cases short

theorem onIncoming_eq_routeHeader (conns : ConnectionMap Sender) (buf : List UInt8) :
    conns.onIncoming buf = conns.routeHeader buf := by
  rw [onIncoming]
  cases short : shortDcid buf with
  | none => rfl
  | some dcid =>
    obtain ⟨after, parsed⟩ := fromBytes_of_shortDcid short
    have full : conns.routeHeader buf =
        conns.sendTo dcid (some (.initial (Header.parsed .short 0 dcid [] none none))) := by
      rw [routeHeader, parsed]
      rfl
    -- what the fast path does not find the parsed header does not find either
    simp only [full, sendTo]
    cases conns.get dcid with
    | none => rfl
    | some found => cases found <;> rfl

end ConnectionMap

structure Routes (Sender : Type) where
  registered : List UInt8 → Option (Nat × Sender)
  connections : Nat → Option Sender

namespace Routes

variable {Sender : Type}

def empty : Routes Sender := ⟨fun _ => none, fun _ => none⟩

def change (routes : Routes Sender) : ConnectionMapOp Sender → Option (List UInt8 × Option (Nat × Sender))
  | .insert cid conn => some (cid, some (conn.id, conn.incomingEvSender))
  | .mapCid cid conn => (routes.connections conn.id).map fun sender => (cid, some (conn.id, sender))
  | .unmapCid cid => some (cid, none)
  | .remove cid => some (cid, none)

def connected (routes : Routes Sender) : ConnectionMapOp Sender → Nat → Option Sender
  | .insert _ conn => Function.update routes.connections conn.id (some conn.incomingEvSender)
  | .remove cid =>
    match routes.registered cid with
    | some (id, _) => Function.update routes.connections id none
    | none => routes.connections
  | _ => routes.connections

def step (routes : Routes Sender) (op : ConnectionMapOp Sender) : Routes Sender where
  registered := match routes.change op with
    | some (cid, route) => Function.update routes.registered cid route
    | none => routes.registered
  connections := routes.connected op

/-- The registrations and removals of a run, in order. -/
def changes : Routes Sender → List (ConnectionMapOp Sender) → List (List UInt8 × Option (Nat × Sender))
  | _, [] => []
  | routes, op :: ops => (routes.change op).toList ++ changes (routes.step op) ops

variable {routes : Routes Sender} {cid : List UInt8} {id : Nat} {sender : Sender}

theorem registered_foldl (routes : Routes Sender) (ops : List (ConnectionMapOp Sender)) :
    (ops.foldl step routes).registered = (routes.changes ops).foldl
        (fun function change => Function.update function change.1 change.2) routes.registered := by
  induction ops generalizing routes with
  | nil => rfl
  | cons op ops ih =>
    rw [List.foldl_cons, ih, changes, List.foldl_append]
    cases change : routes.change op with
    | none => simp [step, change]
    | some done => simp [step, change]

theorem registered_eq_latest (ops : List (ConnectionMapOp Sender)) (cid : List UInt8) :
    (ops.foldl step empty).registered cid = latest (empty.changes ops) cid := by
  rw [registered_foldl]
  exact changed_eq_latest _ cid

end Routes

/-- The map of connections stores the abstract routes. -/
structure Represents {Sender : Type} (conns : ConnectionMap Sender) (routes : Routes Sender) : Prop where
  registered : ∀ cid key, CidOwned.ofConnectionId cid = some key → conns.quicIdMap.get? key = routes.registered cid
  connections : conns.connMap.get? = routes.connections

namespace Represents

variable {Sender : Type} {conns : ConnectionMap Sender} {routes : Routes Sender}

section

variable (represents : Represents conns routes)

include represents

theorem update {cid : List UInt8} {key : CidOwned}
    (keyed : CidOwned.ofConnectionId cid = some key) (route : Option (Nat × Sender)) {other : List UInt8}
    {otherKey : CidOwned} (otherKeyed : CidOwned.ofConnectionId other = some otherKey) :
    Function.update conns.quicIdMap.get? key route otherKey = Function.update routes.registered cid route other := by
  by_cases same : other = cid
  · subst same
    cases keyed.symm.trans otherKeyed
    rw [Function.update_self, Function.update_self]
  · have distinct : otherKey ≠ key := by
      intro equal
      subst equal
      exact same (CidOwned.ofConnectionId_injective otherKeyed keyed)
    rw [Function.update_of_ne distinct, Function.update_of_ne same]
    exact represents.registered other otherKey otherKeyed

section

variable (cid : List UInt8)

theorem insert (conn : InitialQuicConnection Sender) :
    ∃ next, conns.insert cid conn = some next ∧ Represents next (routes.step (.insert cid conn)) := by
  obtain ⟨key, keyed⟩ := CidOwned.ofConnectionId_exists cid
  refine ⟨_, by rw [ConnectionMap.insert, keyed]; rfl, ?_⟩
  constructor
  · intro other otherKey otherKeyed
    dsimp only
    rw [OrderedMap.get?_insert]
    exact represents.update keyed _ otherKeyed
  · dsimp only
    rw [OrderedMap.get?_insert, represents.connections]
    rfl

theorem remove : ∃ next, conns.remove cid = some next ∧ Represents next (routes.step (.remove cid)) := by
  obtain ⟨key, keyed⟩ := CidOwned.ofConnectionId_exists cid
  have held := represents.registered cid key keyed
  have removed : ∀ other otherKey, CidOwned.ofConnectionId other = some otherKey →
      (conns.quicIdMap.remove key).get? otherKey = Function.update routes.registered cid none other := by
    intro other otherKey otherKeyed
    rw [OrderedMap.get?_remove]
    exact represents.update keyed none otherKeyed
  cases route : routes.registered cid with
  | none =>
    refine ⟨_, by rw [ConnectionMap.remove, keyed, Option.bind_eq_bind, Option.bind_some, held, route], removed, ?_⟩
    simp only [Routes.step, Routes.connected, route]
    exact represents.connections
  | some entry =>
    refine ⟨_, by rw [ConnectionMap.remove, keyed, Option.bind_eq_bind, Option.bind_some, held, route], removed, ?_⟩
    simp only [Routes.step, Routes.connected, route]
    rw [OrderedMap.get?_remove, represents.connections]

theorem mapCid (conn : InitialQuicConnection Sender) :
    ∃ next, conns.mapCid cid conn = some next ∧ Represents next (routes.step (.mapCid cid conn)) := by
  obtain ⟨key, keyed⟩ := CidOwned.ofConnectionId_exists cid
  have known := congrFun represents.connections conn.id
  cases connection : routes.connections conn.id with
  | none =>
    refine ⟨conns, by rw [ConnectionMap.mapCid, known, connection], ?_, represents.connections⟩
    simp only [Routes.step, Routes.change, connection]
    exact represents.registered
  | some sender =>
    refine ⟨{ conns with quicIdMap := conns.quicIdMap.insert key (conn.id, sender) }, ?_, ?_, represents.connections⟩
    · rw [ConnectionMap.mapCid, known, connection, keyed]
      rfl
    · intro other otherKey otherKeyed
      simp only [Routes.step, Routes.change, connection]
      rw [OrderedMap.get?_insert]
      exact represents.update keyed _ otherKeyed

theorem unmapCid : ∃ next, conns.unmapCid cid = some next ∧ Represents next (routes.step (.unmapCid cid)) := by
  obtain ⟨key, keyed⟩ := CidOwned.ofConnectionId_exists cid
  refine ⟨{ conns with quicIdMap := conns.quicIdMap.remove key }, ?_, ?_, represents.connections⟩
  · rw [ConnectionMap.unmapCid, keyed]
    rfl
  · intro other otherKey otherKeyed
    dsimp only
    rw [OrderedMap.get?_remove]
    exact represents.update keyed none otherKeyed

end

theorem step (op : ConnectionMapOp Sender) :
    ∃ next, conns.step op = some next ∧ Represents next (routes.step op) := by
  cases op with
  | insert cid conn => exact represents.insert cid conn
  | mapCid cid conn => exact represents.mapCid cid conn
  | unmapCid cid => exact represents.unmapCid cid
  | remove cid => exact represents.remove cid

theorem run (ops : List (ConnectionMapOp Sender)) :
    ∃ final, (ConnectionMap.machine Sender).run conns ops = some final ∧
      Represents final (ops.foldl Routes.step routes) := by
  induction ops generalizing conns routes with
  | nil => exact ⟨conns, rfl, represents⟩
  | cons op ops ih =>
    obtain ⟨next, stepped, nextRepresents⟩ := represents.step op
    obtain ⟨final, completed, finalRepresents⟩ := ih nextRepresents
    refine ⟨final, ?_, finalRepresents⟩
    rw [Machine.run]
    exact (congrArg (Option.bind · _) stepped).trans completed

theorem get (cid : List UInt8) :
    conns.get cid = some ((routes.registered cid).map Prod.snd) := by
  obtain ⟨key, keyed⟩ := CidOwned.ofConnectionId_exists cid
  rw [ConnectionMap.get, keyed, ← represents.registered cid key keyed]
  rfl

end

end Represents

theorem ConnectionMap.default_represents {Sender : Type} :
    Represents (ConnectionMap.default_ : ConnectionMap Sender) Routes.empty := by
  constructor
  · intro _ _ _
    rfl
  · rfl

variable {Sender : Type} {conns : ConnectionMap Sender}

theorem ConnectionMap.sendTo_exists {routes : Routes Sender} (represents : Represents conns routes) (dcid : List UInt8)
    (onward : Routed Sender) : ∃ routed, conns.sendTo dcid (some onward) = some routed := by
  rw [sendTo, represents.get]
  cases (routes.registered dcid).map Prod.snd with
  | none => exact ⟨_, rfl⟩
  | some sender => exact ⟨_, rfl⟩

theorem ConnectionMap.routeHeader_exists {routes : Routes Sender} (represents : Represents conns routes) (buf : List UInt8) :
    ∃ routed, conns.routeHeader buf = some routed := by
  have safe := (Header.ensures_fromBytes maxConnIdLen).fails (withSlice buf)
  rw [routeHeader]
  cases parsed : Header.fromBytes maxConnIdLen (withSlice buf) with
  | ok hdr after => exact sendTo_exists represents hdr.dcid _
  | error failure after =>
    cases failure with
    | panic => exact absurd rfl (safe _ after parsed)
    | error error => cases error <;> exact ⟨_, rfl⟩

/-- After any run the map holds under a byte string what was last registered under exactly that string, and a
packet is routed as its parsed header says, with or without the fast path. -/
theorem ConnectionMap.routes_by_bytes (ops : List (ConnectionMapOp Sender)) :
    ∃ conns, (machine Sender).run default_ ops = some conns ∧
      (∀ cid, conns.get cid = some ((latest (Routes.empty.changes ops) cid).map Prod.snd)) ∧
      ∀ buf, conns.onIncoming buf = conns.routeHeader buf ∧ ∃ routed, conns.onIncoming buf = some routed := by
  obtain ⟨conns, completed, represents⟩ := default_represents.run ops
  refine ⟨conns, completed, fun cid => ?_, fun buf => ?_⟩
  · rw [represents.get, Routes.registered_eq_latest]
  · rw [onIncoming_eq_routeHeader]
    exact ⟨rfl, routeHeader_exists represents buf⟩

end Quiche
