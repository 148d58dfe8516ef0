import Quiche.IoWorker

namespace Quiche.IoWorker

namespace Gathering

variable {capacity size : Nat} {state next : Gathering}

/-- The front of the buffer holds the packets, which have one size and one route. -/
structure Regular (capacity : Nat) (state : Gathering) : Prop where
  counted : state.writeState.numPkts = state.packets.length
  few : state.packets.length < udpMaxSegmentCount
  front : state.front = (state.packets.map Prod.fst).flatten
  written : state.writeState.bytesWritten = state.front.length
  bounded : state.front.length ≤ capacity
  sized : ∀ packet ∈ state.packets, state.segmentSize = some packet.1.length
  positive : ∀ size, state.segmentSize = some size → 0 < size
  routed : ∀ packet ∈ state.packets, state.writeState.selectedPath = some packet.2
  informed : state.sendInfo.map (·.route) = state.writeState.selectedPath

/-- Packets back to back in the buffer, for one path, each but the last `size` bytes long. -/
structure Batch (capacity size : Nat) (state : Gathering) : Prop where
  counted : state.writeState.numPkts = state.packets.length
  few : state.packets.length ≤ udpMaxSegmentCount
  front : state.front = (state.packets.map Prod.fst).flatten
  written : state.writeState.bytesWritten = state.front.length
  bounded : state.front.length ≤ capacity
  even : ∀ packet ∈ state.packets.dropLast, packet.1.length = size
  last : ∀ packet ∈ state.packets.getLast?, packet.1.length ≤ size
  routed : ∀ packet ∈ state.packets, state.writeState.selectedPath = some packet.2

def segment (state : Gathering) : Nat := state.segmentSize.getD state.writeState.bytesWritten

theorem Regular.batch (regular : state.Regular capacity) : state.Batch capacity state.segment where
  counted := regular.counted
  few := Nat.le_of_lt regular.few
  front := regular.front
  written := regular.written
  bounded := regular.bounded
  even packet member := by
    rw [segment, regular.sized packet ((List.dropLast_subset _) member)]
    rfl
  last packet member := by
    rw [segment, regular.sized packet (List.mem_of_getLast? member)]
    exact Nat.le_refl _
  routed := regular.routed

/-- No packet is added. -/
structure Same (state next : Gathering) : Prop where
  packets : next.packets = state.packets
  front : next.front = state.front
  segmentSize : next.segmentSize = state.segmentSize
  sendInfo : next.sendInfo = state.sendInfo
  numPkts : next.writeState.numPkts = state.writeState.numPkts
  bytesWritten : next.writeState.bytesWritten = state.writeState.bytesWritten
  selectedPath : next.writeState.selectedPath = state.writeState.selectedPath

theorem Regular.same (regular : state.Regular capacity) (same : state.Same next) : next.Regular capacity where
  counted := by rw [same.numPkts, same.packets, regular.counted]
  few := by rw [same.packets]; exact regular.few
  front := by rw [same.front, same.packets, regular.front]
  written := by rw [same.bytesWritten, same.front, regular.written]
  bounded := by rw [same.front]; exact regular.bounded
  sized := by rw [same.packets, same.segmentSize]; exact regular.sized
  positive := by rw [same.segmentSize]; exact regular.positive
  routed := by rw [same.packets, same.selectedPath]; exact regular.routed
  informed := by rw [same.sendInfo, same.selectedPath, regular.informed]

/-- One packet is added, on the route of those before. -/
structure Extends (state next : Gathering) (packet : List UInt8) (route : Route) : Prop where
  packets : next.packets = state.packets ++ [(packet, route)]
  front : next.front = state.front ++ packet
  segmentSize : next.segmentSize = state.segmentSize
  numPkts : next.writeState.numPkts = state.writeState.numPkts + 1
  bytesWritten : next.writeState.bytesWritten = state.writeState.bytesWritten + packet.length
  selectedPath : next.writeState.selectedPath = some route
  sendInfo : next.sendInfo.map (·.route) = some route
  joined : ∀ other, state.writeState.selectedPath = some other → other = route

end Gathering

section Write

variable {config : WriterConfig} {conn : QuicheConnection} {capacity : Nat} {state : Gathering}

theorem selectPath_cases (config : WriterConfig) (conn : QuicheConnection) (state : WriteState) :
    (selectPath config conn state).2.numPkts = state.numPkts ∧
      (selectPath config conn state).2.bytesWritten = state.bytesWritten ∧
      (selectPath config conn state).2.selectedPath = state.selectedPath ∧
      ∀ route, state.selectedPath = some route → (selectPath config conn state).1 = some route := by
  unfold selectPath
  cases selected : state.selectedPath with
  | some route => exact ⟨rfl, rfl, selected, fun _ same => same⟩
  | none =>
    simp only
    split
    · exact ⟨rfl, rfl, rfl, nofun⟩
    · exact ⟨rfl, rfl, rfl, nofun⟩

def space (capacity : Nat) (state : Gathering) : Nat :=
  min (capacity - state.writeState.bytesWritten) (state.segmentSize.getD (capacity - state.writeState.bytesWritten))

theorem space_eq_zero_iff (regular : state.Regular capacity) :
    space capacity state = 0 ↔ state.writeState.bytesWritten = capacity := by
  have written := regular.written
  have bounded := regular.bounded
  unfold space
  cases sized : state.segmentSize with
  | none =>
    simp only [Option.getD_none]
    omega
  | some size =>
    have positive := regular.positive size sized
    simp only [Option.getD_some]
    omega

variable {sent : Sent} {packet : List UInt8} {info : SendInfo}

theorem write_unsent (regular : state.Regular capacity) {error : Error}
    (unsent : sendOnPath sent (space capacity state) (selectPath config conn state.writeState).1 = .error error) :
    ∃ outcome next, writePacketToBuffer config conn capacity sent state = some (outcome, next) ∧ state.Same next ∧
      outcome = if error = .done then .ok 0 else .error error := by
  have within : ¬ state.writeState.bytesWritten > capacity := by
    rw [regular.written]
    exact Nat.not_lt.mpr regular.bounded
  obtain ⟨numPkts, bytesWritten, selectedPath, _⟩ := selectPath_cases config conn state.writeState
  unfold space at unsent
  unfold writePacketToBuffer
  simp only [within, if_false, unsent]
  by_cases done : error = .done
  · subst done
    exact ⟨_, _, rfl, ⟨rfl, rfl, rfl, rfl, numPkts, bytesWritten, selectedPath⟩, rfl⟩
  · rw [if_neg done]
    split
    · rename_i same
      cases same
    · rename_i same
      exact absurd (Except.error.inj same) done
    · rename_i other _ same
      cases same
      exact ⟨_, _, rfl, ⟨rfl, rfl, rfl, rfl, numPkts, bytesWritten, selectedPath⟩, rfl⟩

theorem write_sent (regular : state.Regular capacity)
    (packed : sendOnPath sent (space capacity state) (selectPath config conn state.writeState).1 = .ok (packet, info))
    (kept : ∀ route, state.writeState.selectedPath = some route → info.route = route) :
    ∃ next, writePacketToBuffer config conn capacity sent state = some (.ok packet.length, next) ∧
      state.Extends next packet info.route := by
  have within : ¬ state.writeState.bytesWritten > capacity := by
    rw [regular.written]
    exact Nat.not_lt.mpr regular.bounded
  obtain ⟨numPkts, bytesWritten, selectedPath, _⟩ := selectPath_cases config conn state.writeState
  have first : (state.sendInfo.getD info).route = info.route := by
    have informed := regular.informed
    cases held : state.sendInfo with
    | none => rfl
    | some earlier =>
      rw [held, Option.map_some] at informed
      exact (kept earlier.route informed.symm).symm
  unfold space at packed
  unfold writePacketToBuffer
  simp only [within, if_false, packed]
  refine ⟨_, rfl, rfl, rfl, rfl, ?_, ?_, ?_, ?_, fun other selected => (kept other selected).symm⟩
  · simp only [numPkts]
  · simp only [bytesWritten]
  · simp only [first]
  · simp only [Option.map_some, first]

theorem sendOnPath_route {offered : Nat} {route : Route}
    (packed : sendOnPath sent offered (some route) = .ok (packet, info)) : info.route = route := by
  unfold sendOnPath at packed
  split at packed
  · cases packed
  · cases sent with
    | packet write fits chosen at_ =>
      cases packed
      rfl
    | failed error => cases packed

theorem sendOnPath_fits {offered : Nat} {route : Option Route}
    (packed : sendOnPath sent offered route = .ok (packet, info)) : 0 < packet.length ∧ packet.length ≤ offered := by
  unfold sendOnPath at packed
  by_cases noRoom : offered = 0
  · rw [if_pos noRoom] at packed
    cases packed
  · rw [if_neg noRoom] at packed
    cases sent with
    | packet write fits chosen at_ =>
      cases packed
      exact fits offered (Nat.pos_of_ne_zero noRoom)
    | failed error => cases packed

theorem write_cases (regular : state.Regular capacity) (config : WriterConfig) (conn : QuicheConnection) (sent : Sent) :
    (∃ error outcome next,
      sendOnPath sent (space capacity state) (selectPath config conn state.writeState).1 = .error error ∧
      writePacketToBuffer config conn capacity sent state = some (outcome, next) ∧ state.Same next ∧
        outcome = if error = .done then .ok 0 else .error error) ∨ ∃ packet info next,
        sendOnPath sent (space capacity state) (selectPath config conn state.writeState).1 = .ok (packet, info) ∧
        writePacketToBuffer config conn capacity sent state = some (.ok packet.length, next) ∧
        state.Extends next packet info.route ∧ 0 < packet.length ∧ packet.length ≤ space capacity state := by
  cases packed : sendOnPath sent (space capacity state) (selectPath config conn state.writeState).1 with
  | error error =>
    obtain ⟨outcome, next, written, same, eq⟩ := write_unsent regular packed
    exact .inl ⟨error, outcome, next, rfl, written, same, eq⟩
  | ok result =>
    obtain ⟨packet, info⟩ := result
    obtain ⟨positive, fits⟩ := sendOnPath_fits packed
    have kept : ∀ route, state.writeState.selectedPath = some route → info.route = route := by
      intro route selected
      rw [(selectPath_cases config conn state.writeState).2.2.2 route selected] at packed
      exact sendOnPath_route packed
    obtain ⟨next, written, extends_⟩ := write_sent regular packed kept
    exact .inr ⟨packet, info, next, rfl, written, extends_, positive, fits⟩

end Write

section Stop

variable {config : WriterConfig} {capacity packetSize : Nat} {state next : Gathering} {packet : List UInt8}
  {route : Route}

/-- After the packet the loop gathers another one. -/
structure GoesOn (config : WriterConfig) (gcongestion : Bool) (initial : Option ReleaseDecision) (now capacity : Nat)
    (turn : Turn) (packetSize : Nat) (state : Gathering) : Prop where
  withGso : config.withGso = true
  numPkts : state.writeState.numPkts ≠ udpMaxSegmentCount
  tuned : gcongestion = false → state.writeState.bytesWritten < capacity
  sized : ∀ size, state.segmentSize = some size → packetSize = size ∧ gsoThreshold ≤ packetSize
  joins : gcongestion = true → joinsBurst initial now turn = true

def learn (packetSize : Nat) (state : Gathering) : Gathering :=
  { state with segmentSize := some (state.segmentSize.getD packetSize) }

theorem tuneMaxSendSize_exists {segmentSize : Option Nat} (positive : ∀ size, segmentSize = some size → 0 < size)
    (sendQuantum maxCapacity : Nat) :
    ∃ size, tuneMaxSendSize segmentSize sendQuantum maxCapacity = some size ∧ size ≤ maxCapacity := by
  unfold tuneMaxSendSize
  cases segmentSize with
  | none => exact ⟨_, rfl, Nat.min_le_right _ _⟩
  | some mss =>
    cases mss with
    | zero => exact absurd (positive 0 rfl) (Nat.lt_irrefl 0)
    | succ mss => exact ⟨_, rfl, Nat.le_trans (Nat.div_mul_le_self _ _) (Nat.min_le_right _ _)⟩

theorem goesOn_cases (positive : ∀ size, state.segmentSize = some size → 0 < size) (config : WriterConfig)
    (gcongestion : Bool) (initial : Option ReleaseDecision) (now capacity : Nat) (turn : Turn) (packetSize : Nat) :
    ∃ more last, goesOn config gcongestion initial now capacity turn packetSize state = some (more, last) ∧
      (last = state ∨ last = learn packetSize state) ∧ (more = true → last = learn packetSize state ∧
        GoesOn config gcongestion initial now capacity turn packetSize state) := by
  unfold goesOn
  cases gso : config.withGso with
  | false => exact ⟨false, state, rfl, .inl rfl, nofun⟩
  | true =>
    obtain ⟨maxSendSize, tuned, within⟩ : ∃ maxSendSize,
        (if gcongestion then some (2 ^ 64 - 1) else tuneMaxSendSize state.segmentSize turn.sendQuantum capacity) =
          some maxSendSize ∧ (gcongestion = false → maxSendSize ≤ capacity) := by
      cases gcongestion with
      | true => exact ⟨_, rfl, nofun⟩
      | false =>
        obtain ⟨size, tuned, within⟩ := tuneMaxSendSize_exists positive turn.sendQuantum capacity
        exact ⟨size, tuned, fun _ => within⟩
    simp only [Bool.not_true, Bool.false_eq_true, if_false, tuned, Option.bind_some]
    by_cases full : state.writeState.numPkts = udpMaxSegmentCount ∨ state.writeState.bytesWritten ≥ maxSendSize
    · rw [if_pos full]
      exact ⟨false, state, rfl, .inl rfl, nofun⟩
    · rw [if_neg full]
      obtain ⟨few, below⟩ := not_or.mp full
      have room : gcongestion = false → state.writeState.bytesWritten < capacity := fun legacy =>
        Nat.lt_of_lt_of_le (Nat.not_le.mp below) (within legacy)
      have joins : (!gcongestion || joinsBurst initial now turn) = true →
          gcongestion = true → joinsBurst initial now turn = true := by
        rintro holds rfl
        exact holds
      cases sized : state.segmentSize with
      | none =>
        have learned : { state with segmentSize := some packetSize } = learn packetSize state := by
          rw [learn, sized, Option.getD_none]
        refine ⟨_, _, rfl, .inr learned, fun more => ⟨learned, gso, few, room, ?_, joins more⟩⟩
        rw [sized]
        exact nofun
      | some size =>
        have learned : state = learn packetSize state := by
          rw [learn, sized, Option.getD_some, ← sized]
        simp only
        by_cases stops : packetSize ≠ size ∨ packetSize < gsoThreshold
        · rw [if_pos stops]
          exact ⟨false, state, rfl, .inl rfl, nofun⟩
        · rw [if_neg stops]
          obtain ⟨equal, large⟩ := not_or.mp stops
          refine ⟨_, state, rfl, .inl rfl, fun more => ⟨learned, gso, few, room, ?_, joins more⟩⟩
          rw [sized]
          rintro other same
          cases same
          exact ⟨not_not.mp equal, Nat.not_lt.mp large⟩

theorem goesOn_of {initial : Option ReleaseDecision} {now : Nat} {turn : Turn}
    (holds : GoesOn config true initial now capacity turn packetSize state)
    (small : state.writeState.bytesWritten < 2 ^ 64 - 1) :
    goesOn config true initial now capacity turn packetSize state = some (true, learn packetSize state) := by
  have few : ¬ (state.writeState.numPkts = udpMaxSegmentCount ∨ state.writeState.bytesWritten ≥ 2 ^ 64 - 1) :=
    not_or.mpr ⟨holds.numPkts, Nat.not_le.mpr small⟩
  unfold goesOn
  simp only [holds.withGso, Bool.not_true, Bool.false_eq_true, if_false, if_true, Option.bind_some, if_neg few,
    holds.joins rfl, Bool.false_or]
  cases sized : state.segmentSize with
  | none => rw [learn, sized, Option.getD_none]
  | some size =>
    obtain ⟨equal, large⟩ := holds.sized size sized
    have goes : ¬ (packetSize ≠ size ∨ packetSize < gsoThreshold) := not_or.mpr ⟨not_not.mpr equal, Nat.not_lt.mpr large⟩
    simp only [if_neg goes]
    rw [learn, sized, Option.getD_some, ← sized]

section

variable (regular : state.Regular capacity) (extends_ : state.Extends next packet route)

include regular extends_

theorem Gathering.Regular.extended (fits : packet.length ≤ space capacity state) :
    (learn packet.length next).Batch capacity (learn packet.length next).segment ∧
      next.Batch capacity next.segment := by
  have written := regular.written
  have bounded := regular.bounded
  have room : packet.length ≤ capacity - state.writeState.bytesWritten := Nat.le_trans fits (Nat.min_le_left _ _)
  have base : ∀ size, (∀ earlier ∈ state.packets, earlier.1.length = size) → packet.length ≤ size →
      next.Batch capacity size := by
    intro size even last
    exact {
      counted := by rw [extends_.numPkts, extends_.packets, List.length_append, regular.counted]; rfl
      few := by
        rw [extends_.packets, List.length_append]
        exact regular.few
      front := by rw [extends_.front, extends_.packets, regular.front]; simp
      written := by rw [extends_.bytesWritten, extends_.front, List.length_append, written]
      bounded := by
        rw [extends_.front, List.length_append]
        omega
      even := by
        rw [extends_.packets, List.dropLast_concat]
        exact even
      last := by
        rw [extends_.packets, List.getLast?_concat]
        intro other same
        cases same
        exact last
      routed := by
        rw [extends_.packets, extends_.selectedPath]
        intro other member
        rcases List.mem_append.mp member with earlier | new
        · exact congrArg some (extends_.joined other.2 (regular.routed other earlier)).symm
        · rw [List.mem_singleton.mp new] }
  have transfer : ∀ size, next.Batch capacity size → (learn packet.length next).Batch capacity size :=
    fun size batch => ⟨batch.counted, batch.few, batch.front, batch.written, batch.bounded, batch.even, batch.last,
      batch.routed⟩
  cases sized : state.segmentSize with
  | none =>
    have empty : state.packets = [] := by
      refine List.eq_nil_iff_forall_not_mem.mpr fun earlier member => ?_
      have := regular.sized earlier member
      rw [sized] at this
      cases this
    have whole : next.writeState.bytesWritten = packet.length := by
      rw [extends_.bytesWritten, written, regular.front, empty]
      simp
    have learned : (learn packet.length next).segment = packet.length := by
      simp [learn, Gathering.segment, extends_.segmentSize, sized]
    have plain : next.segment = packet.length := by
      rw [Gathering.segment, extends_.segmentSize, sized, Option.getD_none, whole]
    have batch := base packet.length (by simp [empty]) (Nat.le_refl _)
    rw [learned, plain]
    exact ⟨transfer _ batch, batch⟩
  | some size =>
    have learned : (learn packet.length next).segment = size := by
      simp [learn, Gathering.segment, extends_.segmentSize, sized]
    have plain : next.segment = size := by
      rw [Gathering.segment, extends_.segmentSize, sized, Option.getD_some]
    have even : ∀ earlier ∈ state.packets, earlier.1.length = size := by
      intro earlier member
      have := regular.sized earlier member
      rw [sized] at this
      exact (Option.some.inj this).symm
    have last : packet.length ≤ size := by
      have : space capacity state ≤ size := by
        rw [space, sized, Option.getD_some]
        exact Nat.min_le_right _ _
      exact Nat.le_trans fits this
    rw [learned, plain]
    exact ⟨transfer _ (base size even last), base size even last⟩

theorem Gathering.Regular.goes
    (positive : 0 < packet.length) (fits : packet.length ≤ space capacity state) {gcongestion : Bool}
    {initial : Option ReleaseDecision} {now : Nat} {turn : Turn}
    (goes : GoesOn config gcongestion initial now capacity turn packet.length next) :
    (learn packet.length next).Regular capacity ∧ (learn packet.length next).segmentSize = some packet.length := by
  have learned : (learn packet.length next).segmentSize = some packet.length := by
    cases sized : next.segmentSize with
    | none => rw [learn, sized, Option.getD_none]
    | some size => rw [learn, sized, Option.getD_some, (goes.sized size sized).1]
  have batch := (regular.extended extends_ fits).1
  refine ⟨⟨batch.counted, ?_, batch.front, batch.written, batch.bounded, ?_, ?_, batch.routed, ?_⟩, learned⟩
  · have counted := batch.counted
    have apart := goes.numPkts
    have few := batch.few
    change next.writeState.numPkts = next.packets.length at counted
    change next.packets.length ≤ udpMaxSegmentCount at few
    show next.packets.length < udpMaxSegmentCount
    omega
  · intro other member
    rw [learned]
    have member : other ∈ next.packets := member
    rw [extends_.packets] at member
    rcases List.mem_append.mp member with earlier | new
    · have sized := regular.sized other earlier
      rw [← extends_.segmentSize] at sized
      rw [(goes.sized _ sized).1]
    · rw [List.mem_singleton.mp new]
  · rw [learned]
    rintro size same
    cases same
    exact positive
  · show next.sendInfo.map (·.route) = next.writeState.selectedPath
    rw [extends_.sendInfo, extends_.selectedPath]

end

end Stop

end Quiche.IoWorker
