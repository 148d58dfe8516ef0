import Quiche.Data.Machine
import Quiche.Packet

namespace Quiche

open Data

/-! The keys of the Application space once the handshake is confirmed, against a peer that
updates its own by the rules. -/

/-- A 1-RTT key, for either direction. A generation stands for the secret that was derived
that many times. -/
structure PacketKey where
  generation : Nat
deriving DecidableEq

def PacketKey.deriveNextPacketKey (key : PacketKey) : PacketKey := ⟨key.generation + 1⟩

structure SealedPacket where
  pktNum : Nat
  keyPhase : Bool
  generation : Nat
deriving DecidableEq

def PacketKey.opens (key : PacketKey) (packet : SealedPacket) : Bool := key.generation = packet.generation

def parity (generation : Nat) : Bool := generation % 2 = 1

theorem parity_succ (generation : Nat) : parity (generation + 1) = !parity generation := by
  simp only [parity]
  rcases Nat.mod_two_eq_zero_or_one generation with even | odd
  · simp [Nat.add_mod, even]
  · simp [Nat.add_mod, odd]

structure KeyUpdate where
  /-- 1-RTT key used prior to a key update. -/
  cryptoOpen : PacketKey
  /-- The packet number that triggered the latest key update. -/
  pnOnUpdate : Nat
  /-- Whether an ACK frame for the key update has been sent. -/
  updateAcked : Bool
  /-- When the old key should be discarded. -/
  timer : Int
deriving DecidableEq

structure CryptoContext where
  keyUpdate : Option KeyUpdate
  cryptoOpen : PacketKey
  cryptoSeal : PacketKey
deriving DecidableEq

/-- The part of the connection that concerns its keys. -/
structure Keys where
  crypto : CryptoContext
  keyPhase : Bool
  handshakeConfirmed : Bool
  recvPktNum : PktNumWindow
deriving DecidableEq

/-- The errors of the other functions: only the check of an update answers `KeyUpdate`. -/
abbrev OtherError := { reason : Error // reason ≠ .keyUpdate }

structure Handling where
  now : Int
  pto : Nat
  empty : Bool
  route : Except OtherError Unit
  frames : Except OtherError Unit

namespace Keys

variable {keys next : Keys} {packet : SealedPacket} {handling : Handling}

section Receive

def aead (packet : SealedPacket) (keys : Keys) : PacketKey × Option (PacketKey × PacketKey) :=
  if keys.handshakeConfirmed && packet.keyPhase != keys.keyPhase then
    -- Check if this packet arrived before key update.
    match keys.crypto.keyUpdate.filter fun keyUpdate => packet.pktNum < keyUpdate.pnOnUpdate with
    | some keyUpdate => (keyUpdate.cryptoOpen, none)
    | none =>
      let openNext := keys.crypto.cryptoOpen.deriveNextPacketKey
      (openNext, some (openNext, keys.crypto.cryptoSeal.deriveNextPacketKey))
  else (keys.crypto.cryptoOpen, none)

def opens (packet : SealedPacket) (keys : Keys) : Bool := (keys.aead packet).1.opens packet

def commit (openNext sealNext : PacketKey) (packet : SealedPacket) (handling : Handling) (keys : Keys) : Keys :=
  { keys with
    crypto := {
      cryptoSeal := sealNext
      cryptoOpen := openNext
      keyUpdate := some {
        cryptoOpen := keys.crypto.cryptoOpen
        pnOnUpdate := packet.pktNum
        updateAcked := false
        timer := handling.now + 3 * handling.pto } }
    keyPhase := !keys.keyPhase }

def verify (packet : SealedPacket) (handling : Handling) (keys : Keys) : Except Error Keys :=
  match (keys.aead packet).2 with
  | none => .ok keys
  | some (openNext, sealNext) =>
    if keys.crypto.keyUpdate.all (·.updateAcked) then .ok (keys.commit openNext sealNext packet handling)
    -- Peer has updated keys twice without awaiting confirmation.
    else .error .keyUpdate

def recvSingle (packet : SealedPacket) (handling : Handling) (keys : Keys) : Except Error Unit × Keys :=
  if !keys.opens packet then (.error .done, keys)
  else if keys.recvPktNum.contains packet.pktNum then (.error .done, keys)
  else if handling.empty then (.error .invalidPacket, keys)
  else
    match handling.route with
    | .error reason => (.error reason.1, keys)
    | .ok _ =>
      match keys.verify packet handling with
      | .error reason => (.error reason, keys)
      | .ok keys =>
        match handling.frames with
        | .error reason => (.error reason.1, keys)
        | .ok _ => (.ok ⟨⟩, { keys with recvPktNum := keys.recvPktNum.insert packet.pktNum })

end Receive

def sendSingle (keys : Keys) : Keys :=
  { keys with
    crypto := { keys.crypto with
      keyUpdate := keys.crypto.keyUpdate.map fun keyUpdate => { keyUpdate with updateAcked := true } } }

def onTimeout (now : Int) (keys : Keys) : Keys :=
  { keys with
    crypto := { keys.crypto with
      keyUpdate := keys.crypto.keyUpdate.filter fun keyUpdate => now < keyUpdate.timer } }

end Keys

structure Reply where
  generation : Nat
  acked : List Nat
deriving DecidableEq

structure Session where
  keys : Keys
  sealed : List SealedPacket
  sent : List Reply
  received : List Reply

namespace Session

variable {session next : Session}

def new : Session where
  keys := ⟨⟨none, ⟨0⟩, ⟨0⟩⟩, false, true, .default⟩
  sealed := []
  sent := []
  received := []

/-- Steps of either side and of the network, which may deliver each packet any number of
times, in any order, or never. -/
inductive Event where
  | sealPacket (pktNum generation : Nat)
  | deliver (packet : SealedPacket) (handling : Handling)
  | reply (acked : List Nat) (sent : Bool)
  | answer (reply : Reply)
  | timeout (now : Int)

def machine : Machine Session Event where
  step session
    | .sealPacket pktNum generation =>
      some { session with sealed := ⟨pktNum, parity generation, generation⟩ :: session.sealed }
    | .deliver packet handling => some { session with keys := (session.keys.recvSingle packet handling).2 }
    | .reply acked sent =>
      let reply := ⟨session.keys.crypto.cryptoSeal.generation, acked⟩
      some { session with
        keys := session.keys.sendSingle
        sent := if sent then reply :: session.sent else session.sent }
    | .answer reply => some { session with received := reply :: session.received }
    | .timeout now => some { session with keys := session.keys.onTimeout now }

/-- A reply in the generation or a later one acknowledges a packet of it. -/
def Confirmed (session : Session) (generation : Nat) : Prop :=
  ∃ reply ∈ session.received, generation ≤ reply.generation ∧
    ∃ packet ∈ session.sealed, packet.generation = generation ∧ packet.pktNum ∈ reply.acked

/-- The generations do not decrease with the packet numbers, which are not used twice, and a
generation starts only once the one before is confirmed. What arrives was sent. -/
def Admits (session : Session) : Event → Prop
  | .sealPacket pktNum generation =>
    pktNum < 2 ^ 62 ∧ (∀ packet ∈ session.sealed, packet.pktNum < pktNum ∧ packet.generation ≤ generation ∨
      pktNum < packet.pktNum ∧ generation ≤ packet.generation) ∧ ∀ earlier < generation, session.Confirmed earlier
  | .deliver packet _ => packet ∈ session.sealed
  | .answer reply => reply ∈ session.sent
  | .reply _ _ | .timeout _ => True

instance (session : Session) (generation : Nat) : Decidable (session.Confirmed generation) :=
  inferInstanceAs (Decidable (∃ reply ∈ session.received, generation ≤ reply.generation ∧
    ∃ packet ∈ session.sealed, packet.generation = generation ∧ packet.pktNum ∈ reply.acked))

instance (session : Session) : DecidablePred session.Admits
  | .sealPacket _ _ => inferInstanceAs (Decidable (_ ∧ _ ∧ _))
  | .deliver packet _ => inferInstanceAs (Decidable (packet ∈ session.sealed))
  | .answer reply => inferInstanceAs (Decidable (reply ∈ session.sent))
  | .reply _ _ | .timeout _ => .isTrue trivial

end Session

end Quiche
