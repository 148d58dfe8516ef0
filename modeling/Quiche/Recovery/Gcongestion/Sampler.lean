import Quiche.Recovery.Gcongestion
import Quiche.Recovery.Gcongestion.Bbr.StateMap

namespace Quiche.Gcongestion

/-- Of the states of the packets only their sizes are kept. -/
abbrev ConnectionStateMap := Bbr.ConnectionStateMap Nat

/-- What `BandwidthSampler` counts. -/
structure BandwidthSampler where
  totalBytesSent : Nat
  totalBytesAcked : Nat
  totalBytesLost : Nat
  totalBytesNeutered : Nat
  connectionStateMap : ConnectionStateMap

namespace BandwidthSampler

def new : BandwidthSampler := ⟨0, 0, 0, 0, []⟩

def onPacketSent (sampler : BandwidthSampler) (packetNumber bytes : Nat) (hasRetransmittableData : Bool) :
    Option BandwidthSampler :=
  if hasRetransmittableData then
    (sampler.connectionStateMap.insert packetNumber bytes).map fun connectionStateMap =>
      { sampler with totalBytesSent := sampler.totalBytesSent + bytes, connectionStateMap }
  else some sampler

def onPacketNeutered (sampler : BandwidthSampler) (packetNumber : Nat) : BandwidthSampler :=
  let (size, connectionStateMap) := sampler.connectionStateMap.take packetNumber
  { sampler with totalBytesNeutered := sampler.totalBytesNeutered + size.getD 0, connectionStateMap }

def onPacketLost (sampler : BandwidthSampler) (packet : Lost) : BandwidthSampler :=
  { sampler with
    totalBytesLost := sampler.totalBytesLost + packet.bytesLost
    connectionStateMap := (sampler.connectionStateMap.take packet.packetNumber).2 }

def onPacketAcknowledged (sampler : BandwidthSampler) (packet : Acked) : BandwidthSampler :=
  let (size, connectionStateMap) := sampler.connectionStateMap.take packet.pktNum
  { sampler with totalBytesAcked := sampler.totalBytesAcked + size.getD 0, connectionStateMap }

/-- `on_congestion_event`, without its bandwidth samples. -/
def onCongestionEvent (sampler : BandwidthSampler) (ackedPackets : List Acked) (lostPackets : List Lost) :
    BandwidthSampler := ackedPackets.foldl onPacketAcknowledged (lostPackets.foldl onPacketLost sampler)

def removeObsoletePackets (sampler : BandwidthSampler) (leastAcked : Nat) : BandwidthSampler :=
  { sampler with connectionStateMap := sampler.connectionStateMap.removeObsolete leastAcked }

end BandwidthSampler

/-- The byte counts of `BBRv2CongestionEvent`. -/
structure CongestionEvent where
  priorBytesInFlight : Nat
  bytesAcked : Nat
  bytesLost : Nat
  bytesInFlight : Nat
deriving DecidableEq

/-- `on_congestion_event_start` of the network model, as far as it counts bytes. -/
def onCongestionEventStart (sampler : BandwidthSampler) (ackedPackets : List Acked) (lostPackets : List Lost)
    (priorBytesInFlight : Nat) : BandwidthSampler × CongestionEvent :=
  let after := sampler.onCongestionEvent ackedPackets lostPackets
  let bytesAcked := after.totalBytesAcked - sampler.totalBytesAcked
  let bytesLost := after.totalBytesLost - sampler.totalBytesLost
  (after, ⟨priorBytesInFlight, bytesAcked, bytesLost, priorBytesInFlight - bytesAcked - bytesLost⟩)

namespace BandwidthSampler

variable {sampler next : BandwidthSampler}

/-- The sampler forgets the packets with these numbers. -/
structure Forgets (sampler : BandwidthSampler) (numbers : List Nat) (next : BandwidthSampler) : Prop where
  sorted : next.connectionStateMap.Sorted
  keys : List.Sublist (next.connectionStateMap.map (·.1)) (sampler.connectionStateMap.map (·.1))
  held : ∀ other size, (other, some size) ∈ next.connectionStateMap ↔
    (other, some size) ∈ sampler.connectionStateMap ∧ other ∉ numbers

theorem Forgets.refl (sorted : sampler.connectionStateMap.Sorted) : Forgets sampler [] sampler :=
  ⟨sorted, .refl _, by simp⟩

theorem Forgets.trans {middle : BandwidthSampler} {first second : List Nat} (earlier : Forgets sampler first middle)
    (later : Forgets middle second next) : Forgets sampler (first ++ second) next where
  sorted := later.sorted
  keys := later.keys.trans earlier.keys
  held other size := by
    rw [later.held, earlier.held, List.mem_append, not_or, and_assoc]

theorem Forgets.take (sorted : sampler.connectionStateMap.Sorted) (pktNum : Nat)
    (taken : next.connectionStateMap = (sampler.connectionStateMap.take pktNum).2) : Forgets sampler [pktNum] next := by
  obtain ⟨_, kept, stored⟩ := Bbr.ConnectionStateMap.take_spec sorted pktNum
  rw [← taken] at kept stored
  refine ⟨kept, taken ▸ Bbr.ConnectionStateMap.take_keys _ _, fun other size => ?_⟩
  rw [← Bbr.ConnectionStateMap.stored_iff_mem kept, ← Bbr.ConnectionStateMap.stored_iff_mem sorted, stored,
    Function.update_apply, List.mem_singleton]
  split <;> simp_all

theorem Forgets.foldl {Packet : Type} {number : Packet → Nat} {call : BandwidthSampler → Packet → BandwidthSampler}
    (takes : ∀ sampler packet,
      (call sampler packet).connectionStateMap = (sampler.connectionStateMap.take (number packet)).2)
    (sorted : sampler.connectionStateMap.Sorted) (packets : List Packet) :
    Forgets sampler (packets.map number) (packets.foldl call sampler) := by
  induction packets generalizing sampler with
  | nil => exact .refl sorted
  | cons packet packets ih =>
    have first : Forgets sampler [number packet] (call sampler packet) := .take sorted _ (takes sampler packet)
    exact first.trans (ih first.sorted)

theorem onCongestionEvent_forgets (sorted : sampler.connectionStateMap.Sorted) (acked : List Acked) (lost : List Lost) :
    Forgets sampler (lost.map (·.packetNumber) ++ acked.map (·.pktNum)) (sampler.onCongestionEvent acked lost) := by
  have first : Forgets sampler (lost.map (·.packetNumber)) (lost.foldl onPacketLost sampler) :=
    .foldl (fun _ _ => rfl) sorted lost
  exact first.trans (.foldl (fun _ _ => rfl) first.sorted acked)

theorem mem_removeObsolete_iff {map : ConnectionStateMap} (sorted : map.Sorted) (least number size : Nat) :
    (number, some size) ∈ map.removeObsolete least ↔ (number, some size) ∈ map ∧ least ≤ number := by
  obtain ⟨kept, stored⟩ := Bbr.ConnectionStateMap.removeObsolete_spec sorted least
  rw [← Bbr.ConnectionStateMap.stored_iff_mem kept, ← Bbr.ConnectionStateMap.stored_iff_mem sorted, stored]
  split <;> simp <;> omega

def trackedBytes (sampler : BandwidthSampler) (pktNum : Nat) : Nat := (sampler.connectionStateMap.stored pktNum).getD 0

theorem neutered_forgets (sorted : sampler.connectionStateMap.Sorted) (numbers : List Nat) :
    Forgets sampler numbers (numbers.foldl onPacketNeutered sampler) ∧
      (numbers.foldl onPacketNeutered sampler).totalBytesAcked = sampler.totalBytesAcked ∧
      (numbers.foldl onPacketNeutered sampler).totalBytesLost = sampler.totalBytesLost := by
  have forgets : Forgets sampler (numbers.map id) (numbers.foldl onPacketNeutered sampler) :=
    .foldl (fun _ _ => rfl) sorted numbers
  rw [List.map_id] at forgets
  refine ⟨forgets, ?_⟩
  clear forgets sorted
  induction numbers generalizing sampler with
  | nil => exact ⟨rfl, rfl⟩
  | cons number numbers ih => exact ih

theorem lost_spec (sorted : sampler.connectionStateMap.Sorted) (packets : List Lost) :
    Forgets sampler (packets.map (·.packetNumber)) (packets.foldl onPacketLost sampler) ∧
      (packets.foldl onPacketLost sampler).totalBytesAcked = sampler.totalBytesAcked ∧
      (packets.foldl onPacketLost sampler).totalBytesLost =
        sampler.totalBytesLost + (packets.map (·.bytesLost)).sum := by
  induction packets generalizing sampler with
  | nil => exact ⟨.refl sorted, rfl, rfl⟩
  | cons packet packets ih =>
    have first : Forgets sampler [packet.packetNumber] (sampler.onPacketLost packet) := .take sorted _ rfl
    obtain ⟨rest, acked, lost⟩ := ih first.sorted
    refine ⟨first.trans rest, acked, ?_⟩
    rw [List.foldl_cons, lost, List.map_cons, List.sum_cons, ← Nat.add_assoc]
    rfl

theorem Forgets.trackedBytes {numbers : List Nat} (forgets : Forgets sampler numbers next)
    (sorted : sampler.connectionStateMap.Sorted) {pktNum : Nat} (kept : pktNum ∉ numbers) :
    next.trackedBytes pktNum = sampler.trackedBytes pktNum := by
  have same : next.connectionStateMap.stored pktNum = sampler.connectionStateMap.stored pktNum := by
    refine Option.ext fun size => ?_
    rw [Bbr.ConnectionStateMap.stored_iff_mem forgets.sorted, Bbr.ConnectionStateMap.stored_iff_mem sorted, forgets.held,
      and_iff_left kept]
  rw [BandwidthSampler.trackedBytes, same]
  rfl

theorem acked_spec (sorted : sampler.connectionStateMap.Sorted) (packets : List Acked)
    (distinct : (packets.map (·.pktNum)).Nodup) :
    Forgets sampler (packets.map (·.pktNum)) (packets.foldl onPacketAcknowledged sampler) ∧
      (packets.foldl onPacketAcknowledged sampler).totalBytesLost = sampler.totalBytesLost ∧
      (packets.foldl onPacketAcknowledged sampler).totalBytesAcked =
        sampler.totalBytesAcked + (packets.map fun packet => sampler.trackedBytes packet.pktNum).sum := by
  induction packets generalizing sampler with
  | nil => exact ⟨.refl sorted, rfl, rfl⟩
  | cons packet packets ih =>
    have first : Forgets sampler [packet.pktNum] (sampler.onPacketAcknowledged packet) := .take sorted _ rfl
    rw [List.map_cons, List.nodup_cons] at distinct
    obtain ⟨rest, lost, acked⟩ := ih first.sorted distinct.2
    have others : packets.map (fun listed => (sampler.onPacketAcknowledged packet).trackedBytes listed.pktNum) =
        packets.map fun packet => sampler.trackedBytes packet.pktNum := by
      refine List.map_congr_left fun other member => first.trackedBytes sorted fun same => distinct.1 ?_
      rw [← List.mem_singleton.mp same]
      exact List.mem_map_of_mem member
    have counted : (sampler.onPacketAcknowledged packet).totalBytesAcked =
        sampler.totalBytesAcked + sampler.trackedBytes packet.pktNum := by
      show sampler.totalBytesAcked + (sampler.connectionStateMap.take packet.pktNum).1.getD 0 = _
      rw [(Bbr.ConnectionStateMap.take_spec sorted packet.pktNum).1]
      rfl
    refine ⟨first.trans rest, lost, ?_⟩
    rw [List.foldl_cons, acked, others, counted, List.map_cons, List.sum_cons, Nat.add_assoc]

theorem onCongestionEventStart_spec (sorted : sampler.connectionStateMap.Sorted) {acked : List Acked}
    {lost : List Lost} (distinct : (acked.map (·.pktNum)).Nodup)
    (apart : ∀ packet ∈ acked, packet.pktNum ∉ lost.map (·.packetNumber)) (prior : Nat) :
    ∃ after, onCongestionEventStart sampler acked lost prior = (after, ⟨prior,
        (acked.map fun packet => sampler.trackedBytes packet.pktNum).sum, (lost.map (·.bytesLost)).sum,
        prior - (acked.map fun packet => sampler.trackedBytes packet.pktNum).sum - (lost.map (·.bytesLost)).sum⟩) ∧
      Forgets sampler (lost.map (·.packetNumber) ++ acked.map (·.pktNum)) after := by
  obtain ⟨first, kept, lostBytes⟩ := lost_spec sorted lost
  obtain ⟨second, same, ackedBytes⟩ := acked_spec first.sorted acked distinct
  have bytes : acked.map (fun packet => (lost.foldl onPacketLost sampler).trackedBytes packet.pktNum) =
      acked.map fun packet => sampler.trackedBytes packet.pktNum :=
    List.map_congr_left fun packet member => first.trackedBytes sorted (apart packet member)
  rw [bytes, kept] at ackedBytes
  rw [lostBytes] at same
  refine ⟨_, ?_, first.trans second⟩
  rw [onCongestionEventStart, onCongestionEvent, ackedBytes, same, Nat.add_sub_cancel_left, Nat.add_sub_cancel_left]

end BandwidthSampler

end Quiche.Gcongestion
