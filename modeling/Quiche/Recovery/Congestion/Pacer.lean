import Mathlib.Algebra.Group.Int.Defs
import Mathlib.Algebra.Group.Nat.Defs
import Quiche.Data.Machine

namespace Quiche

open Data

/-- A `Duration` is its number of nanoseconds. -/
structure Pacer where
  enabled : Bool
  capacity : Nat
  used : Nat
  rate : Nat
  lastUpdate : Int
  nextTime : Int
  maxDatagramSize : Nat
  lastPacketSize : Option Nat
  iv : Nat
  maxPacingRate : Option Nat
deriving DecidableEq

namespace Pacer

/-- Round to MSS; `none` is the division by zero. -/
def rounded (capacity maxDatagramSize : Nat) : Option Nat :=
  if maxDatagramSize = 0 then none else some (capacity / maxDatagramSize * maxDatagramSize)

def limited (maxPacingRate : Option Nat) (rate : Nat) : Nat :=
  match maxPacingRate with
  | some maxRate => min maxRate rate
  | none => rate

/-- The source reads the clock twice. -/
def new (enabled : Bool) (capacity rate maxDatagramSize : Nat) (maxPacingRate : Option Nat)
    (lastUpdate nextTime : Int) : Option Pacer := do
  let capacity ← rounded capacity maxDatagramSize
  return {
    enabled
    capacity
    used := 0
    rate := limited maxPacingRate rate
    lastUpdate
    nextTime
    maxDatagramSize
    lastPacketSize := none
    iv := 0
    maxPacingRate }

def reset (pacer : Pacer) (now : Int) : Pacer :=
  { pacer with
    used := 0
    lastUpdate := now
    nextTime := max pacer.nextTime now
    lastPacketSize := none
    iv := 0 }

def update (pacer : Pacer) (capacity rate : Nat) (now : Int) : Option Pacer := do
  let capacity ← rounded capacity pacer.maxDatagramSize
  let pacer := if pacer.capacity ≠ capacity then pacer.reset now else pacer
  return { pacer with
    capacity
    rate := limited pacer.maxPacingRate rate }

/-- The first part of `send`: the interval of the burst before is added. -/
def advance (pacer : Pacer) (now : Int) : Pacer :=
  if pacer.iv ≠ 0 then { pacer with nextTime := max pacer.nextTime now + pacer.iv, iv := 0 }
  else pacer

def sameSize (pacer : Pacer) (packetSize : Nat) : Bool :=
  match pacer.lastPacketSize with
  | some lastPacketSize => lastPacketSize == packetSize
  | none => true

/-- The last part of `send`, the packet in the bucket. -/
def fill (secs : Nat → Nat → Nat) (pacer : Pacer) (packetSize : Nat) (now : Int) : Pacer :=
  let used := pacer.used + packetSize
  if used ≥ pacer.capacity ∨ ¬ pacer.sameSize packetSize then
    { pacer with
      iv := secs used pacer.rate
      used := 0
      lastUpdate := now
      lastPacketSize := none }
  else { pacer with used, lastPacketSize := some packetSize }

/-- `secs` is the duration of so many bytes at a rate, a quotient of floating point numbers. -/
def send (secs : Nat → Nat → Nat) (pacer : Pacer) (packetSize : Nat) (now : Int) : Pacer :=
  if pacer.rate = 0 then pacer.reset now
  else
    let pacer := pacer.advance now
    let interval := secs pacer.capacity pacer.rate
    let elapsed := (now - pacer.lastUpdate).toNat
    let pacer := if elapsed > interval then pacer.reset now else pacer
    pacer.fill secs packetSize now

/-- The pacer adds nothing to its next time, which is already past. -/
def Lags (secs : Nat → Nat → Nat) (pacer : Pacer) (rate : Nat) (now : Int) : Prop :=
  rate ≠ 0 ∧ pacer.iv = 0 ∧ (now - pacer.lastUpdate).toNat ≤ secs pacer.capacity rate ∧ pacer.nextTime < now

instance (secs : Nat → Nat → Nat) (pacer : Pacer) (rate : Nat) (now : Int) : Decidable (pacer.Lags secs rate now) :=
  inferInstanceAs (Decidable (_ ∧ _))

variable {secs : Nat → Nat → Nat} {pacer next : Pacer} {packetSize capacity rate : Nat} {now : Int}

@[simp] theorem fill_nextTime (pacer : Pacer) (packetSize : Nat) (now : Int) :
    (pacer.fill secs packetSize now).nextTime = pacer.nextTime := by
  rw [fill]
  split <;> rfl

theorem send_nextTime (pacer : Pacer) (packetSize : Nat) (now : Int) : (pacer.send secs packetSize now).nextTime =
      if pacer.rate ≠ 0 ∧ pacer.iv ≠ 0 then max pacer.nextTime now + pacer.iv
      else if pacer.Lags secs pacer.rate now then pacer.nextTime
      else max pacer.nextTime now := by
  rw [send]
  by_cases unpaced : pacer.rate = 0
  · simp [unpaced, Lags, reset]
  · rw [if_neg unpaced, fill_nextTime]
    by_cases pending : pacer.iv = 0
    · have same : pacer.advance now = pacer := if_neg fun waits => waits pending
      simp only [same, pending, ne_eq, not_true_eq_false, and_false, if_false]
      by_cases old : (now - pacer.lastUpdate).toNat > secs pacer.capacity pacer.rate
      · rw [if_pos old, if_neg fun lags => absurd lags.2.2.1 (Nat.not_le.mpr old)]
        rfl
      · rw [if_neg old]
        split
        · rfl
        · rename_i current
          have ahead : ¬ pacer.nextTime < now := fun passed => current ⟨unpaced, pending, Nat.not_lt.mp old, passed⟩
          omega
    · have moved : pacer.advance now = { pacer with nextTime := max pacer.nextTime now + pacer.iv, iv := 0 } :=
        if_pos pending
      have added : pacer.rate ≠ 0 ∧ pacer.iv ≠ 0 := ⟨unpaced, pending⟩
      rw [moved, if_pos added]
      split
      · simp only [reset]
        omega
      · rfl

theorem update_cases (updated : pacer.update capacity rate now = some next) :
    next.rate = limited pacer.maxPacingRate rate ∧ ((rounded capacity pacer.maxDatagramSize = some pacer.capacity ∧
          next = { pacer with rate := limited pacer.maxPacingRate rate }) ∨
        (rounded capacity pacer.maxDatagramSize ≠ some pacer.capacity ∧ next.nextTime = max pacer.nextTime now ∧
          next.iv = 0)) := by
  obtain ⟨fits, whole, stepped⟩ := Option.bind_eq_some_iff.mp updated
  cases stepped
  by_cases same : pacer.capacity = fits
  · subst same
    rw [whole]
    simp
  · rw [whole]
    simp only [if_pos same]
    refine ⟨rfl, .inr ⟨fun equal => same (Option.some.inj equal).symm, rfl, rfl⟩⟩

end Pacer

structure Release where
  now : Int
  timeSent : Int
deriving DecidableEq

/-- The part of `LegacyRecovery` and its `Congestion` that pacing reads. Kept beside it are the packets that were
sent, newest first, and whether the pacer is a new one since the last of them. -/
structure PacedRecovery where
  pacer : Pacer
  congestionWindow : Nat
  sendQuantum : Nat
  congestionMaxDatagramSize : Nat
  initialCongestionWindowPackets : Nat
  maxDatagramSize : Nat
  released : List Release
  recreated : Bool
deriving DecidableEq

/-- The fields of `RecoveryConfig` that pacing reads -/
structure PacingConfig where
  pacing : Bool
  maxSendUdpPayloadSize : Nat
  initialCongestionWindowPackets : Nat
  maxPacingRate : Option Nat

/-- `congestion` stands for all that a congestion controller does to the window and the quantum. -/
inductive PacingOp where
  | onPacketSent (sentBytes : Nat) (rate : Option Nat) (now : Int)
  | setPacingRate (rate : Nat) (now : Int)
  | congestion (congestionWindow sendQuantum : Nat)
  | pmtudUpdateMaxDatagramSize (newMaxDatagramSize : Nat) (lastUpdate nextTime : Int)
  | updateMaxDatagramSize (newMaxDatagramSize : Nat) (lastUpdate nextTime : Int)

/-- No packet is recorded before its real time or before an earlier packet. -/
structure InOrder (released : List Release) : Prop where
  real : ∀ release ∈ released, release.now ≤ release.timeSent
  ordered : released.Pairwise fun later earlier => earlier.timeSent ≤ later.timeSent

theorem inOrder_nil : InOrder [] := ⟨fun _ member => absurd member List.not_mem_nil, .nil⟩

theorem inOrder_cons {released : List Release} {release : Release} : InOrder (release :: released) ↔ InOrder released ∧
      release.now ≤ release.timeSent ∧ ∀ last ∈ released.head?, last.timeSent ≤ release.timeSent := by
  constructor
  · rintro ⟨real, ordered⟩
    obtain ⟨current, others⟩ := List.forall_mem_cons.mp real
    obtain ⟨below, rest⟩ := List.pairwise_cons.mp ordered
    exact ⟨⟨others, rest⟩, current, fun last head => below last (List.mem_of_mem_head? head)⟩
  · rintro ⟨order, current, above⟩
    constructor
    · exact List.forall_mem_cons.mpr ⟨current, order.real⟩
    · refine List.pairwise_cons.mpr ⟨fun earlier member => ?_, order.ordered⟩
      cases released with
      | nil => cases member
      | cons last rest =>
        have newest := above last rfl
        rcases List.mem_cons.mp member with rfl | older
        · exact newest
        · exact Int.le_trans ((List.pairwise_cons.mp order.ordered).1 earlier older) newest

namespace PacedRecovery

def fromConfig (config : PacingConfig) (lastUpdate nextTime : Int) : Option PacedRecovery := do
  let initialCongestionWindow := config.maxSendUdpPayloadSize * config.initialCongestionWindowPackets
  let pacer ← Pacer.new config.pacing initialCongestionWindow 0 config.maxSendUdpPayloadSize config.maxPacingRate
    lastUpdate nextTime
  return {
    pacer
    congestionWindow := initialCongestionWindow
    sendQuantum := initialCongestionWindow
    congestionMaxDatagramSize := config.maxSendUdpPayloadSize
    initialCongestionWindowPackets := config.initialCongestionWindowPackets
    maxDatagramSize := config.maxSendUdpPayloadSize
    released := []
    recreated := false }

def setPacingRate (recovery : PacedRecovery) (rate : Nat) (now : Int) : Option PacedRecovery := do
  return { recovery with pacer := ← recovery.pacer.update recovery.sendQuantum rate now }

def readied (recovery : PacedRecovery) (rate : Option Nat) (now : Int) : Option PacedRecovery :=
  match rate with
  | some rate => recovery.setPacingRate rate now
  | none => some recovery

def scheduleNextPacket (secs : Nat → Nat → Nat) (recovery : PacedRecovery) (packetSize : Nat) (now : Int) : Pacer :=
  let inInitcwnd := recovery.congestionWindow <
    recovery.congestionMaxDatagramSize * recovery.initialCongestionWindowPackets
  let sentBytes := if ¬ recovery.pacer.enabled ∨ inInitcwnd then 0 else packetSize
  recovery.pacer.send secs sentBytes now

def onPacketSent (secs : Nat → Nat → Nat) (recovery : PacedRecovery) (sentBytes : Nat) (rate : Option Nat) (now : Int) :
    Option PacedRecovery := do
  let ready ← recovery.readied rate now
  let pacer := ready.scheduleNextPacket secs sentBytes now
  return { ready with
    pacer
    released := ⟨now, pacer.nextTime⟩ :: ready.released
    recreated := false }

def pmtudUpdateMaxDatagramSize (recovery : PacedRecovery) (newMaxDatagramSize : Nat) (lastUpdate nextTime : Int) :
    Option PacedRecovery := do
  let congestionWindow :=
    if recovery.congestionWindow = recovery.maxDatagramSize * recovery.initialCongestionWindowPackets then
      newMaxDatagramSize * recovery.initialCongestionWindowPackets
    else recovery.congestionWindow
  let pacer ← Pacer.new recovery.pacer.enabled congestionWindow 0 newMaxDatagramSize recovery.pacer.maxPacingRate
    lastUpdate nextTime
  return { recovery with
    pacer
    congestionWindow
    maxDatagramSize := newMaxDatagramSize
    recreated := true }

def updateMaxDatagramSize (recovery : PacedRecovery) (newMaxDatagramSize : Nat) (lastUpdate nextTime : Int) :
    Option PacedRecovery :=
  recovery.pmtudUpdateMaxDatagramSize (min recovery.maxDatagramSize newMaxDatagramSize) lastUpdate nextTime

def step (secs : Nat → Nat → Nat) (recovery : PacedRecovery) : PacingOp → Option PacedRecovery
  | .onPacketSent sentBytes rate now => recovery.onPacketSent secs sentBytes rate now
  | .setPacingRate rate now => recovery.setPacingRate rate now
  | .congestion congestionWindow sendQuantum => some { recovery with congestionWindow, sendQuantum }
  | .pmtudUpdateMaxDatagramSize size lastUpdate nextTime => recovery.pmtudUpdateMaxDatagramSize size lastUpdate nextTime
  | .updateMaxDatagramSize size lastUpdate nextTime => recovery.updateMaxDatagramSize size lastUpdate nextTime

def machine (secs : Nat → Nat → Nat) : Machine PacedRecovery PacingOp := ⟨step secs⟩

/-- The packet falls into a running burst whose release time is past. -/
def Lagging (secs : Nat → Nat → Nat) (recovery : PacedRecovery) (rate : Option Nat) (now : Int) : Prop :=
  match rate with
  | none => recovery.pacer.Lags secs recovery.pacer.rate now
  | some rate =>
    Pacer.rounded recovery.sendQuantum recovery.pacer.maxDatagramSize = some recovery.pacer.capacity ∧
      recovery.pacer.Lags secs (Pacer.limited recovery.pacer.maxPacingRate rate) now

/-- The pacer is a new one that does not know when the last packet was released. -/
def Forgets (recovery : PacedRecovery) (now : Int) : Prop :=
  recovery.recreated ∧ ∃ last ∈ recovery.released.head?, max recovery.pacer.nextTime now < last.timeSent

/-- At the sending of a packet, the pacer neither lags nor has it forgotten a later release. -/
def InTime (secs : Nat → Nat → Nat) (recovery : PacedRecovery) : PacingOp → Prop
  | .onPacketSent _ rate now => ¬ recovery.Lagging secs rate now ∧ ¬ recovery.Forgets now
  | _ => True

instance (secs : Nat → Nat → Nat) (recovery : PacedRecovery) (rate : Option Nat) (now : Int) :
    Decidable (recovery.Lagging secs rate now) :=
  match rate with
  | none => inferInstanceAs (Decidable (recovery.pacer.Lags secs recovery.pacer.rate now))
  | some _ => inferInstanceAs (Decidable (_ ∧ _))

instance (recovery : PacedRecovery) (now : Int) : Decidable (recovery.Forgets now) :=
  inferInstanceAs (Decidable (_ ∧ _))

instance (secs : Nat → Nat → Nat) (recovery : PacedRecovery) (op : PacingOp) : Decidable (recovery.InTime secs op) :=
  match op with
  | .onPacketSent .. => inferInstanceAs (Decidable (_ ∧ _))
  | .setPacingRate .. | .congestion .. | .pmtudUpdateMaxDatagramSize .. | .updateMaxDatagramSize .. => .isTrue trivial

/-- The last release is not above the next time, unless the pacer was made anew. -/
structure Remembers (recovery : PacedRecovery) : Prop where
  kept : recovery.recreated = false → ∀ last ∈ recovery.released.head?, last.timeSent ≤ recovery.pacer.nextTime
  fresh : recovery.recreated = true → recovery.pacer.iv = 0

variable {secs : Nat → Nat → Nat} {recovery next : PacedRecovery} {sentBytes : Nat} {rate : Option Nat} {now : Int}

/-- Setting the rate never takes the release time back, and takes it no further than to the real time. -/
structure Readied (secs : Nat → Nat → Nat) (recovery : PacedRecovery) (rate : Option Nat) (now : Int)
    (next : PacedRecovery) : Prop where
  nextTime_ge : recovery.pacer.nextTime ≤ next.pacer.nextTime
  nextTime_le : next.pacer.nextTime ≤ max recovery.pacer.nextTime now
  iv : recovery.pacer.iv = 0 → next.pacer.iv = 0
  lags : next.pacer.Lags secs next.pacer.rate now ↔ recovery.Lagging secs rate now
  released : next.released = recovery.released
  recreated : next.recreated = recovery.recreated

theorem readied_spec (secs : Nat → Nat → Nat) (ready : recovery.readied rate now = some next) :
    Readied secs recovery rate now next := by
  cases rate with
  | none =>
    cases ready
    exact ⟨Int.le_refl _, by omega, id, .rfl, rfl, rfl⟩
  | some rate =>
    obtain ⟨pacer, updated, stepped⟩ := Option.bind_eq_some_iff.mp ready
    cases stepped
    obtain ⟨limited, ⟨same, rfl⟩ | ⟨different, released, empty⟩⟩ := Pacer.update_cases updated
    · exact ⟨Int.le_refl _, Int.le_max_left _ _, id, (and_iff_right same).symm, rfl, rfl⟩
    · refine ⟨by simp only [released]; omega, by simp only [released]; omega, fun _ => empty, ?_, rfl, rfl⟩
      constructor
      · intro lags
        have passed : pacer.nextTime < now := lags.2.2.2
        omega
      · intro lagging
        exact absurd lagging.1 different

theorem released_iff (remembers : recovery.Remembers) (readied : Readied secs recovery rate now next) (sentBytes : Nat) :
    (now ≤ (next.scheduleNextPacket secs sentBytes now).nextTime ∧
        ∀ last ∈ recovery.released.head?, last.timeSent ≤ (next.scheduleNextPacket secs sentBytes now).nextTime) ↔
      ¬ recovery.Lagging secs rate now ∧ ¬ recovery.Forgets now := by
  obtain ⟨nextTime_ge, nextTime_le, iv, lags, _, _⟩ := readied
  generalize sent : (next.scheduleNextPacket secs sentBytes now).nextTime = timeSent
  rw [scheduleNextPacket, Pacer.send_nextTime] at sent
  have remembered : recovery.recreated = false → next.pacer.nextTime ≤ timeSent →
      ∀ last ∈ recovery.released.head?, last.timeSent ≤ timeSent := by
    intro old reached last head
    have := remembers.kept old last head
    omega
  by_cases burst : next.pacer.rate ≠ 0 ∧ next.pacer.iv ≠ 0
  · rw [if_pos burst] at sent
    have pending : recovery.pacer.iv ≠ 0 := fun empty => burst.2 (iv empty)
    have old : recovery.recreated = false := Bool.eq_false_iff.mpr fun recreated => pending (remembers.fresh recreated)
    have inTime : ¬ recovery.Lagging secs rate now := fun lagging => burst.2 (lags.mpr lagging).2.1
    constructor
    · intro _
      exact ⟨inTime, fun forgets => Bool.false_ne_true (old.symm.trans forgets.1)⟩
    · intro _
      exact ⟨by omega, remembered old (by omega)⟩
  · rw [if_neg burst] at sent
    by_cases lagging : recovery.Lagging secs rate now
    · have late := lags.mpr lagging
      rw [if_pos late] at sent
      have passed : next.pacer.nextTime < now := late.2.2.2
      constructor
      · rintro ⟨current, _⟩
        omega
      · rintro ⟨inTime, _⟩
        exact absurd lagging inTime
    · rw [if_neg fun late => lagging (lags.mp late)] at sent
      have both : timeSent = max recovery.pacer.nextTime now := by omega
      constructor
      · rintro ⟨_, above⟩
        refine ⟨lagging, ?_⟩
        rintro ⟨_, last, head, later⟩
        have := above last head
        omega
      · rintro ⟨_, inMind⟩
        refine ⟨by omega, ?_⟩
        by_cases recreated : recovery.recreated = true
        · intro last head
          refine Int.not_lt.mp fun later => inMind ⟨recreated, last, head, ?_⟩
          omega
        · exact remembered (Bool.eq_false_iff.mpr recreated) (by omega)

variable {lastUpdate nextTime : Int}

theorem pmtudUpdate_spec {size : Nat}
    (updated : recovery.pmtudUpdateMaxDatagramSize size lastUpdate nextTime = some next) :
    next.Remembers ∧ next.released = recovery.released := by
  obtain ⟨pacer, created, stepped⟩ := Option.bind_eq_some_iff.mp updated
  cases stepped
  obtain ⟨capacity, _, made⟩ := Option.bind_eq_some_iff.mp created
  cases made
  refine ⟨⟨fun old => ?_, fun _ => rfl⟩, rfl⟩
  cases old

theorem setPacingRate_spec {rate : Nat} (remembers : recovery.Remembers)
    (updated : recovery.setPacingRate rate now = some next) : next.Remembers ∧ next.released = recovery.released := by
  have readied : Readied (fun _ _ => 0) recovery (some rate) now next := readied_spec _ updated
  refine ⟨⟨fun old last head => ?_, fun recreated => ?_⟩, readied.released⟩
  · have kept := remembers.kept (readied.recreated.symm.trans old) last (readied.released ▸ head)
    exact Int.le_trans kept readied.nextTime_ge
  · exact readied.iv (remembers.fresh (readied.recreated.symm.trans recreated))

theorem step_spec {op : PacingOp} (remembers : recovery.Remembers)
    (stepped : (machine secs).step recovery op = some next) :
    next.Remembers ∧ (InOrder next.released ↔ InOrder recovery.released ∧ recovery.InTime secs op) := by
  cases op with
  | onPacketSent sentBytes rate now =>
    obtain ⟨ready, readied, stepped⟩ := Option.bind_eq_some_iff.mp stepped
    cases stepped
    have spec := readied_spec secs readied
    have inTime := released_iff remembers spec sentBytes
    constructor
    · exact ⟨fun _ last head => Int.le_of_eq (congrArg Release.timeSent (Option.some.inj head)).symm, nofun⟩
    · dsimp only
      rw [inOrder_cons, spec.released]
      exact and_congr_right fun _ => inTime
  | setPacingRate rate now =>
    obtain ⟨kept, same⟩ := setPacingRate_spec remembers stepped
    exact ⟨kept, by rw [same]; exact (and_iff_left trivial).symm⟩
  | congestion congestionWindow sendQuantum =>
    cases stepped
    exact ⟨⟨remembers.kept, remembers.fresh⟩, (and_iff_left trivial).symm⟩
  | pmtudUpdateMaxDatagramSize size lastUpdate nextTime =>
    obtain ⟨kept, same⟩ := pmtudUpdate_spec stepped
    exact ⟨kept, by rw [same]; exact (and_iff_left trivial).symm⟩
  | updateMaxDatagramSize size lastUpdate nextTime =>
    obtain ⟨kept, same⟩ := pmtudUpdate_spec stepped
    exact ⟨kept, by rw [same]; exact (and_iff_left trivial).symm⟩

theorem fromConfig_spec {config : PacingConfig} (configured : fromConfig config lastUpdate nextTime = some recovery) :
    recovery.Remembers ∧ recovery.released = [] := by
  obtain ⟨pacer, created, made⟩ := Option.bind_eq_some_iff.mp configured
  cases made
  obtain ⟨capacity, _, made⟩ := Option.bind_eq_some_iff.mp created
  cases made
  exact ⟨⟨fun _ _ head => absurd head (by simp), nofun⟩, rfl⟩

/-- In any run the recorded times are in order exactly if every packet is sent in time. -/
theorem times_in_order_iff (secs : Nat → Nat → Nat) {config : PacingConfig}
    {ops : List PacingOp} {start final : PacedRecovery} (configured : fromConfig config lastUpdate nextTime = some start)
    (completed : (machine secs).run start ops = some final) :
    InOrder final.released ↔ (machine secs).Guarded (InTime secs) start ops := by
  obtain ⟨remembers, nothing⟩ := fromConfig_spec configured
  have exactly := (machine secs).run_iff_guarded
    (fun _ _ _ remembers stepped => (step_spec remembers stepped).1)
    (fun _ _ _ remembers stepped => (step_spec remembers stepped).2) remembers completed
  rw [exactly, nothing]
  exact and_iff_right inOrder_nil

def tenPackets : PacingConfig := ⟨true, 1200, 10, none⟩

def nanoseconds (bytes rate : Nat) : Nat := bytes * 10 ^ 9 / rate

/-- A burst fills the capacity, the packet behind it waits, and the rate and the path MTU change later. -/
def paced : List PacingOp := [.onPacketSent 1200 none 0, .congestion 24000 12000] ++
    .replicate 11 (.onPacketSent 1200 (some 240000) (125 * 10 ^ 6)) ++
    [.onPacketSent 1200 (some 240000) (127 * 10 ^ 6), .setPacingRate 120000 (300 * 10 ^ 6),
      .onPacketSent 1200 (some 120000) (300 * 10 ^ 6),
      .pmtudUpdateMaxDatagramSize 1400 (301 * 10 ^ 6) (301 * 10 ^ 6),
      .onPacketSent 1400 (some 120000) (302 * 10 ^ 6)]

theorem times_in_order_iff_paced :
    ∃ start final, fromConfig tenPackets 0 0 = some start ∧ (machine nanoseconds).run start paced = some final ∧
      final.released.map Release.timeSent = [302 * 10 ^ 6, 300 * 10 ^ 6, 175 * 10 ^ 6, 175 * 10 ^ 6] ++
        .replicate 10 (125 * 10 ^ 6) ++ [0] ∧ InOrder final.released := by
  have computed : ∃ start ∈ fromConfig tenPackets 0 0, (machine nanoseconds).Guarded (InTime nanoseconds) start paced ∧
      ∃ final ∈ (machine nanoseconds).run start paced, final.released.map Release.timeSent =
        [302 * 10 ^ 6, 300 * 10 ^ 6, 175 * 10 ^ 6, 175 * 10 ^ 6] ++ .replicate 10 (125 * 10 ^ 6) ++ [0] := by
    decide +kernel
  obtain ⟨start, configured, inTime, final, completed, times⟩ := computed
  exact ⟨start, final, configured, completed, times, (times_in_order_iff nanoseconds configured completed).mpr inTime⟩

def lateBurst : List PacingOp := [.onPacketSent 1200 none 0, .onPacketSent 1200 (some 120000) (125 * 10 ^ 6),
    .onPacketSent 1200 (some 120000) (126 * 10 ^ 6)]

def changedMtu : List PacingOp := [.onPacketSent 1200 none 0, .congestion 24000 12000] ++
    .replicate 11 (.onPacketSent 1200 (some 240000) (125 * 10 ^ 6)) ++
    [.pmtudUpdateMaxDatagramSize 1400 (126 * 10 ^ 6) (126 * 10 ^ 6), .onPacketSent 1200 (some 240000) (127 * 10 ^ 6)]

/-- Packets sent at real times in order: one is recorded before its real time, another before an earlier packet. -/
theorem times_not_in_order : ∃ start, fromConfig tenPackets 0 0 = some start ∧
      (∃ final, (machine nanoseconds).run start lateBurst = some final ∧
        (final.released.Pairwise fun later earlier => earlier.now ≤ later.now) ∧
        ¬ ∀ release ∈ final.released, release.now ≤ release.timeSent) ∧
      ∃ final, (machine nanoseconds).run start changedMtu = some final ∧
        (final.released.Pairwise fun later earlier => earlier.now ≤ later.now) ∧
        ¬ final.released.Pairwise fun later earlier => earlier.timeSent ≤ later.timeSent := by
  decide +kernel

end PacedRecovery

end Quiche
