import Quiche.Connection.KeyUpdate

namespace Quiche

open Data

namespace Session

variable {session next : Session} {packet : SealedPacket} {handling : Handling}

def generation (session : Session) : Nat := session.keys.crypto.cryptoOpen.generation

/-- The keys, the packets and the replies of a session fit together. -/
structure Steady (session : Session) : Prop where
  confirmed : session.keys.handshakeConfirmed = true
  together : session.keys.crypto.cryptoSeal.generation = session.generation
  phase : session.keys.keyPhase = parity session.generation
  update : ∀ keyUpdate ∈ session.keys.crypto.keyUpdate, keyUpdate.cryptoOpen.generation + 1 = session.generation ∧
      ∃ packet ∈ session.sealed, packet.pktNum = keyUpdate.pnOnUpdate ∧ packet.generation = session.generation
  ordered : ∀ packet ∈ session.sealed, ∀ other ∈ session.sealed,
    packet.pktNum ≤ other.pktNum → packet.generation ≤ other.generation
  phases : ∀ packet ∈ session.sealed, packet.keyPhase = parity packet.generation
  started : ∀ packet ∈ session.sealed, ∀ earlier < packet.generation, ∃ reply ∈ session.received,
    earlier ≤ reply.generation
  received : ∀ reply ∈ session.received, reply ∈ session.sent
  behind : ∀ reply ∈ session.sent, reply.generation ≤ session.generation
  acked : ∀ reply ∈ session.sent, reply.generation = session.generation →
    ∀ keyUpdate ∈ session.keys.crypto.keyUpdate, keyUpdate.updateAcked = true

section Keys

section

variable (steady : session.Steady)

include steady

section

variable (sealed : packet ∈ session.sealed)

include sealed

theorem Steady.acknowledged
    (later : packet.generation = session.generation + 1) :
    ∀ keyUpdate ∈ session.keys.crypto.keyUpdate, keyUpdate.updateAcked = true := by
  obtain ⟨reply, arrived, reached⟩ := steady.started packet sealed session.generation (by omega)
  have sent := steady.received reply arrived
  exact steady.acked reply sent (Nat.le_antisymm (steady.behind reply sent) reached)

theorem Steady.aead_current
    (current : packet.generation = session.generation) :
    session.keys.aead packet = (session.keys.crypto.cryptoOpen, none) := by
  have same : packet.keyPhase = session.keys.keyPhase := by
    rw [steady.phases packet sealed, steady.phase, current]
  rw [Keys.aead, same, bne_self_eq_false, Bool.and_false, if_neg Bool.false_ne_true]

theorem Steady.aead_next
    (later : packet.generation = session.generation + 1) : session.keys.aead packet =
      (⟨session.generation + 1⟩, some (⟨session.generation + 1⟩, ⟨session.generation + 1⟩)) := by
  have turned : (packet.keyPhase != session.keys.keyPhase) = true := by
    rw [steady.phases packet sealed, steady.phase, later, parity_succ]
    cases parity session.generation <;> rfl
  have absent : (session.keys.crypto.keyUpdate.filter fun keyUpdate => packet.pktNum < keyUpdate.pnOnUpdate) = none := by
    rw [Option.filter_eq_none_iff]
    intro keyUpdate stored early
    obtain ⟨_, trigger, member, number, same⟩ := steady.update keyUpdate stored
    have before : packet.pktNum ≤ trigger.pktNum := by
      rw [number]
      exact Nat.le_of_lt (of_decide_eq_true early)
    have bound := steady.ordered packet sealed trigger member before
    omega
  rw [Keys.aead, steady.confirmed, turned, Bool.and_true, if_pos rfl, absent]
  simp only [PacketKey.deriveNextPacketKey, steady.together]
  rfl

theorem Steady.aead_previous
    (earlier : packet.generation + 1 = session.generation) {keyUpdate : KeyUpdate}
    (stored : session.keys.crypto.keyUpdate = some keyUpdate) :
    session.keys.aead packet = (keyUpdate.cryptoOpen, none) := by
  have turned : (packet.keyPhase != session.keys.keyPhase) = true := by
    rw [steady.phases packet sealed, steady.phase, ← earlier, parity_succ]
    cases parity packet.generation <;> rfl
  obtain ⟨_, trigger, member, number, same⟩ := steady.update keyUpdate stored
  have early : packet.pktNum < keyUpdate.pnOnUpdate := by
    by_contra late
    have bound := steady.ordered trigger member packet sealed (by omega)
    omega
  rw [Keys.aead, steady.confirmed, turned, Bool.and_true, if_pos rfl, stored, Option.filter_some,
    if_pos (decide_eq_true early)]

theorem Steady.opens
    (recent : packet.generation = session.generation ∨ packet.generation = session.generation + 1) :
    session.keys.opens packet = true := by
  rcases recent with current | later
  · rw [Keys.opens, steady.aead_current sealed current, PacketKey.opens, current]
    exact decide_eq_true rfl
  · rw [Keys.opens, steady.aead_next sealed later, PacketKey.opens, later]
    exact decide_eq_true rfl

theorem Steady.opens_previous
    (earlier : packet.generation + 1 = session.generation) (kept : session.keys.crypto.keyUpdate.isSome = true) :
    session.keys.opens packet = true := by
  obtain ⟨keyUpdate, stored⟩ := Option.isSome_iff_exists.mp kept
  have older := (steady.update keyUpdate stored).1
  rw [Keys.opens, steady.aead_previous sealed earlier stored]
  exact decide_eq_true (Nat.succ.inj (older.trans earlier.symm))

end

end

theorem aead_update {keys : Keys} {openNext sealNext : PacketKey}
    (updates : (keys.aead packet).2 = some (openNext, sealNext)) :
    (keys.aead packet).1 = openNext ∧ openNext = keys.crypto.cryptoOpen.deriveNextPacketKey ∧
      sealNext = keys.crypto.cryptoSeal.deriveNextPacketKey := by
  rw [Keys.aead] at updates ⊢
  split at updates
  · rename_i turned
    rw [if_pos turned]
    split at updates
    · cases updates
    · cases updates
      exact ⟨rfl, rfl, rfl⟩
  · cases updates

theorem Steady.verify (steady : session.Steady) (sealed : packet ∈ session.sealed)
    (opened : session.keys.opens packet = true) :
    session.keys.verify packet handling = .ok session.keys ∨ packet.generation = session.generation + 1 ∧
        session.keys.verify packet handling = .ok (session.keys.commit ⟨session.generation + 1⟩
          ⟨session.generation + 1⟩ packet handling) := by
  rw [Keys.verify]
  cases updates : (session.keys.aead packet).2 with
  | none => exact .inl rfl
  | some pair =>
    obtain ⟨openNext, sealNext⟩ := pair
    obtain ⟨chosen, derived, derivedSeal⟩ := aead_update updates
    rw [Keys.opens, chosen, derived] at opened
    have later : packet.generation = session.generation + 1 := (of_decide_eq_true opened).symm
    have acked : session.keys.crypto.keyUpdate.all (·.updateAcked) = true := by
      cases stored : session.keys.crypto.keyUpdate with
      | none => rfl
      | some keyUpdate => exact steady.acknowledged sealed later keyUpdate stored
    refine .inr ⟨later, ?_⟩
    simp only [if_pos acked, derived, derivedSeal, PacketKey.deriveNextPacketKey, steady.together]
    rfl

end Keys

section Steps

section

variable (steady : session.Steady)

include steady

theorem Steady.commit (sealed : packet ∈ session.sealed)
    (later : packet.generation = session.generation + 1) : Steady { session with
      keys := session.keys.commit ⟨session.generation + 1⟩ ⟨session.generation + 1⟩ packet handling } where
  confirmed := steady.confirmed
  together := rfl
  phase := by
    show (!session.keys.keyPhase) = parity (session.generation + 1)
    rw [steady.phase, parity_succ]
  update := by
    intro keyUpdate stored
    cases stored
    exact ⟨rfl, packet, sealed, rfl, later⟩
  ordered := steady.ordered
  phases := steady.phases
  started := steady.started
  received := steady.received
  behind := fun reply sent => Nat.le_succ_of_le (steady.behind reply sent)
  acked := fun reply sent same => absurd same (Nat.ne_of_lt (Nat.lt_succ_of_le (steady.behind reply sent)))

theorem Steady.window (recvPktNum : PktNumWindow) :
    Steady { session with keys := { session.keys with recvPktNum := recvPktNum } } :=
  ⟨steady.confirmed, steady.together, steady.phase, steady.update, steady.ordered, steady.phases, steady.started,
    steady.received, steady.behind, steady.acked⟩

theorem Steady.recvSingle (sealed : packet ∈ session.sealed) :
    (session.keys.recvSingle packet handling).1 ≠ .error .keyUpdate ∧
      Steady { session with keys := (session.keys.recvSingle packet handling).2 } ∧
      session.generation ≤ (session.keys.recvSingle packet handling).2.crypto.cryptoOpen.generation := by
  rw [Keys.recvSingle]
  split
  · exact ⟨nofun, steady, Nat.le_refl _⟩
  · rename_i opened
    have opened : session.keys.opens packet = true := by simpa using opened
    split
    · exact ⟨nofun, steady, Nat.le_refl _⟩
    · split
      · exact ⟨nofun, steady, Nat.le_refl _⟩
      · cases handling.route with
        | error reason => exact ⟨fun same => reason.2 (Except.error.inj same), steady, Nat.le_refl _⟩
        | ok _ =>
          have outcome : ∃ middle, session.keys.verify packet handling = .ok middle ∧
              Steady { session with keys := middle } ∧ session.generation ≤ middle.crypto.cryptoOpen.generation := by
            rcases steady.verify sealed opened with kept | ⟨later, moved⟩
            · exact ⟨_, kept, steady, Nat.le_refl _⟩
            · exact ⟨_, moved, steady.commit sealed later, Nat.le_succ _⟩
          obtain ⟨middle, verified, kept, grown⟩ := outcome
          rw [verified]
          cases handling.frames with
          | error reason => exact ⟨fun same => reason.2 (Except.error.inj same), kept, grown⟩
          | ok _ => exact ⟨nofun, kept.window _, grown⟩

theorem Steady.sendSingle (acked : List Nat) (sent : Bool) : Steady { session with
      keys := session.keys.sendSingle
      sent := if sent then ⟨session.keys.crypto.cryptoSeal.generation, acked⟩ :: session.sent else session.sent } := by
  have same : Steady { session with keys := session.keys.sendSingle } := by
    refine ⟨steady.confirmed, steady.together, steady.phase, fun keyUpdate stored => ?_, steady.ordered,
      steady.phases, steady.started, steady.received, steady.behind, fun reply sent same keyUpdate stored => ?_⟩
    · obtain ⟨earlier, known, rfl⟩ := Option.map_eq_some_iff.mp stored
      exact steady.update earlier known
    · obtain ⟨earlier, known, rfl⟩ := Option.map_eq_some_iff.mp stored
      rfl
  cases sent with
  | false => exact same
  | true =>
    refine { same with received := ?_, behind := ?_, acked := ?_ }
    · exact fun reply arrived => List.mem_cons_of_mem _ (same.received reply arrived)
    · intro reply member
      rcases List.mem_cons.mp member with rfl | before
      · exact Nat.le_of_eq steady.together
      · exact same.behind reply before
    · intro reply _ _ keyUpdate stored
      obtain ⟨earlier, _, rfl⟩ := Option.map_eq_some_iff.mp stored
      rfl

theorem Steady.onTimeout (now : Int) :
    Steady { session with keys := session.keys.onTimeout now } := by
  have stored (keyUpdate : KeyUpdate) (left : keyUpdate ∈ (session.keys.onTimeout now).crypto.keyUpdate) :
      keyUpdate ∈ session.keys.crypto.keyUpdate := (Option.mem_filter_iff.mp left).1
  exact { steady with
    update := fun keyUpdate left => steady.update keyUpdate (stored keyUpdate left)
    acked := fun reply sent same keyUpdate left => steady.acked reply sent same keyUpdate (stored keyUpdate left) }

theorem Steady.sealPacket {pktNum generation : Nat}
    (honest : session.Admits (.sealPacket pktNum generation)) :
    Steady { session with sealed := ⟨pktNum, parity generation, generation⟩ :: session.sealed } := by
  obtain ⟨_, follows, starts⟩ := honest
  refine { steady with update := ?_, ordered := ?_, phases := ?_, started := ?_ }
  · intro keyUpdate stored
    obtain ⟨older, trigger, member, facts⟩ := steady.update keyUpdate stored
    exact ⟨older, trigger, List.mem_cons_of_mem _ member, facts⟩
  · intro packet member other found before
    rcases List.mem_cons.mp member with rfl | older <;> rcases List.mem_cons.mp found with rfl | stored
    · exact Nat.le_refl _
    · rcases follows other stored with ⟨less, _⟩ | ⟨_, bound⟩
      · exact absurd before (Nat.not_le.mpr less)
      · exact bound
    · rcases follows packet older with ⟨_, bound⟩ | ⟨less, _⟩
      · exact bound
      · exact absurd before (Nat.not_le.mpr less)
    · exact steady.ordered packet older other stored before
  · intro packet member
    rcases List.mem_cons.mp member with rfl | before
    · rfl
    · exact steady.phases packet before
  · intro packet member earlier less
    rcases List.mem_cons.mp member with rfl | before
    · obtain ⟨reply, arrived, late, _⟩ := starts earlier less
      exact ⟨reply, arrived, late⟩
    · exact steady.started packet before earlier less

theorem Steady.step {event : Event} (admits : session.Admits event)
    (stepped : machine.step session event = some next) : next.Steady ∧ session.generation ≤ next.generation := by
  cases event with
  | sealPacket pktNum generation =>
    cases stepped
    exact ⟨steady.sealPacket admits, Nat.le_refl _⟩
  | deliver packet handling =>
    cases stepped
    exact (steady.recvSingle admits).2
  | reply acked sent =>
    cases stepped
    exact ⟨steady.sendSingle acked sent, Nat.le_refl _⟩
  | answer reply =>
    cases stepped
    refine ⟨{ steady with started := ?_, received := ?_ }, Nat.le_refl _⟩
    · intro packet sealed earlier less
      obtain ⟨older, arrived, late⟩ := steady.started packet sealed earlier less
      exact ⟨older, List.mem_cons_of_mem _ arrived, late⟩
    · exact List.forall_mem_cons.mpr ⟨admits, steady.received⟩
  | timeout now =>
    cases stepped
    exact ⟨steady.onTimeout now, Nat.le_refl _⟩

end

theorem new_steady : new.Steady where
  confirmed := rfl
  together := rfl
  phase := rfl
  update := fun _ stored => nomatch stored
  ordered := fun _ member => nomatch member
  phases := fun _ member => nomatch member
  started := fun _ member => nomatch member
  received := fun _ member => nomatch member
  behind := fun _ member => nomatch member
  acked := fun _ member => nomatch member

end Steps

/-- Both directions have keys of one generation, and every packet of a current one can be opened. -/
structure InStep (session : Session) : Prop where
  together : session.keys.crypto.cryptoSeal.generation = session.keys.crypto.cryptoOpen.generation
  phase : session.keys.keyPhase = parity session.keys.crypto.cryptoOpen.generation
  opens : ∀ packet ∈ session.sealed,
    packet.generation = session.generation ∨ packet.generation = session.generation + 1 →
      session.keys.opens packet = true
  previous : ∀ packet ∈ session.sealed, packet.generation + 1 = session.generation →
    session.keys.crypto.keyUpdate.isSome = true → session.keys.opens packet = true
  accepted : ∀ packet ∈ session.sealed, ∀ handling, (session.keys.recvSingle packet handling).1 ≠ .error .keyUpdate
  forward : ∀ event next, session.Admits event → machine.step session event = some next →
    session.generation ≤ next.generation

theorem keys_in_step {events : List Event} (honest : machine.Guarded Admits new events)
    (completed : machine.run new events = some session) : session.InStep := by
  have steady : session.Steady := machine.run_keeps_of_guarded
    (fun _ _ _ steady admits stepped => (Steady.step steady admits stepped).1) new_steady honest completed
  exact ⟨steady.together, steady.phase, fun packet sealed recent => steady.opens sealed recent,
    fun packet sealed earlier kept => steady.opens_previous sealed earlier kept,
    fun packet sealed handling => (steady.recvSingle sealed).1,
    fun event next admits stepped => (steady.step admits stepped).2⟩

def updated : List Event := [
  .sealPacket 0 0, .sealPacket 1 0, .deliver ⟨0, false, 0⟩ ⟨5, 10, false, .ok ⟨⟩, .ok ⟨⟩⟩, .reply [0] true,
    .answer ⟨0, [0]⟩,
  .sealPacket 2 1, .deliver ⟨2, true, 1⟩ ⟨9, 10, false, .ok ⟨⟩, .ok ⟨⟩⟩,
  .deliver ⟨1, false, 0⟩ ⟨10, 10, false, .ok ⟨⟩, .ok ⟨⟩⟩]

theorem keys_in_step_updated :
    ∃ session, machine.run new updated = some session ∧ session.generation = 1 ∧ session.InStep := by
  have honest : machine.Guarded Admits new updated := by decide +kernel
  exact ⟨_, rfl, rfl, keys_in_step honest rfl⟩

end Session

end Quiche
