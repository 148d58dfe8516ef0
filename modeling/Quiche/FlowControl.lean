import Quiche.Data.Machine
import Quiche.Error

namespace Quiche

def windowIncreaseFactor : Nat := 2

def windowTriggerFactor : Nat := 2

structure FlowControl where
  consumed : Nat
  maxData : Nat
  window : Nat
  maxWindow : Nat
  lastUpdate : Option Nat
deriving DecidableEq

namespace FlowControl

def new (maxData window maxWindow : Nat) : FlowControl where
  consumed := 0
  maxData := maxData
  window := window
  maxWindow := maxWindow
  lastUpdate := none

def addConsumed (control : FlowControl) (consumed : Nat) : Option FlowControl :=
  (addU64 control.consumed consumed).map fun total => { control with consumed := total }

theorem addConsumed_of_lt {control : FlowControl} {consumed : Nat} (bound : control.consumed + consumed < 2 ^ 64) :
    control.addConsumed consumed = some { control with consumed := control.consumed + consumed } := by
  simp only [addConsumed, addU64_of_lt bound, Option.map_some]

/-- `none` is the underflow panic. -/
def shouldUpdateMaxData (control : FlowControl) : Option Bool :=
  (subChecked control.maxData control.consumed).map fun availableWindow =>
    availableWindow < control.window / 2

def maxDataNext (control : FlowControl) : Option Nat := addU64 control.consumed control.window

def updateMaxData (control : FlowControl) (now : Nat) : Option FlowControl :=
  control.maxDataNext.map fun maxData => { control with maxData, lastUpdate := some now }

/-- An update within two round trips of the last one doubles the window. The difference
of two instants saturates; `none` is the overflow of the product. -/
def autotuneWindow (control : FlowControl) (now rtt : Nat) : Option FlowControl :=
  match control.lastUpdate with
  | none => some control
  | some lastUpdate =>
    if now - lastUpdate < rtt * windowTriggerFactor then
      let window := control.window * windowIncreaseFactor
      if window < 2 ^ 64 then some { control with window := min window control.maxWindow } else none
    else some control

def ensureWindowLowerBound (control : FlowControl) (minWindow : Nat) : FlowControl :=
  if minWindow > control.window then { control with window := minWindow } else control

open Data

inductive Owner where
  | stream
  | connection
deriving DecidableEq

structure Driven where
  control : FlowControl
  received : Nat
  almostFull : Bool
  announced : Bool
deriving DecidableEq

inductive LimitCall where
  | receive (upTo : Nat)
  | consume (count : Nat) (sizeKnown : Bool)
  | lost
  | send (now rtt : Nat) (minWindows : List Nat) (fits : Bool)

namespace Driven

def start (maxData window maxWindow : Nat) : Driven := ⟨.new maxData window maxWindow, 0, false, false⟩

def accepts (driven : Driven) (upTo : Nat) : Bool := upTo ≤ driven.control.maxData

def receive (driven : Driven) (upTo : Nat) : Driven :=
  if driven.accepts upTo then { driven with received := max driven.received upTo } else driven

def consume (driven : Driven) (count : Nat) (sizeKnown : Bool) : Option Driven := do
  let control ← driven.control.addConsumed (min count (driven.received - driven.control.consumed))
  if sizeKnown then return { driven with control }
  else
    let update ← control.shouldUpdateMaxData
    return { driven with control, almostFull := driven.almostFull || update }

def commit (driven : Driven) (now rtt : Nat) (fits : Bool) : Option Driven := do
  let control ← driven.control.autotuneWindow now rtt
  let _ ← control.maxDataNext
  if fits then
    return { driven with control := ← control.updateMaxData now, almostFull := false, announced := true }
  else return { driven with control }

def raise (driven : Driven) (minWindows : List Nat) : Driven :=
  { driven with
    control := minWindows.foldl ensureWindowLowerBound driven.control
    almostFull := driven.almostFull || !minWindows.isEmpty }

def sendStream (driven : Driven) (now rtt : Nat) (fits : Bool) : Option Driven :=
  if driven.almostFull then driven.commit now rtt fits else some driven

def sendConnection (driven : Driven) (now rtt : Nat) (minWindows : List Nat) (fits : Bool) : Option Driven := do
  let driven := driven.raise minWindows
  if driven.almostFull then
    let limit ← driven.control.maxDataNext
    if driven.control.maxData < limit then driven.commit now rtt fits else return driven
  else return driven

def machine (owner : Owner) : Machine Driven LimitCall where
  step driven
    | .receive upTo => some (driven.receive upTo)
    | .consume count sizeKnown => driven.consume count sizeKnown
    | .lost => some { driven with almostFull := driven.almostFull || driven.announced }
    | .send now rtt minWindows fits =>
      match owner with
      | .stream => driven.sendStream now rtt fits
      | .connection => driven.sendConnection now rtt minWindows fits

end Driven

/-- Whether `autotune_window` changes the window. -/
def Tunes (control : FlowControl) (now rtt : Nat) : Prop :=
  ∃ lastUpdate, control.lastUpdate = some lastUpdate ∧ now - lastUpdate < rtt * windowTriggerFactor

variable {control next : FlowControl} {now rtt : Nat}

theorem autotuneWindow_spec (tuned : control.autotuneWindow now rtt = some next)
    (within : control.Tunes now rtt → control.window ≤ control.maxWindow) :
    ∃ window, next = { control with window } ∧ control.window ≤ window := by
  rw [autotuneWindow] at tuned
  split at tuned
  · cases tuned
    exact ⟨control.window, rfl, Nat.le_refl _⟩
  · rename_i lastUpdate updated
    split at tuned
    · rename_i recent
      have bounded := within ⟨lastUpdate, updated, recent⟩
      dsimp only at tuned
      split at tuned
      · cases tuned
        refine ⟨_, rfl, Nat.le_min.mpr ⟨?_, bounded⟩⟩
        exact Nat.le_mul_of_pos_right _ (by decide)
      · cases tuned
    · cases tuned
      exact ⟨control.window, rfl, Nat.le_refl _⟩

theorem maxDataNext_spec {limit : Nat} (sum : control.maxDataNext = some limit) :
    limit = control.consumed + control.window := addU64_spec sum

theorem updateMaxData_spec (updated : control.updateMaxData now = some next) :
    next = { control with maxData := control.consumed + control.window, lastUpdate := some now } := by
  obtain ⟨maxData, sum, rfl⟩ := Option.map_eq_some_iff.mp updated
  rw [maxDataNext_spec sum]

theorem foldl_ensureWindowLowerBound (control : FlowControl) (minWindows : List Nat) :
    ∃ window, minWindows.foldl ensureWindowLowerBound control = { control with window } ∧ control.window ≤ window := by
  induction minWindows generalizing control with
  | nil => exact ⟨control.window, rfl, Nat.le_refl _⟩
  | cons minWindow rest ih =>
    obtain ⟨window, folded, larger⟩ := ih (control.ensureWindowLowerBound minWindow)
    rw [List.foldl_cons, folded]
    rw [ensureWindowLowerBound] at larger ⊢
    split
    · rename_i raised
      rw [if_pos raised] at larger
      exact ⟨window, rfl, Nat.le_trans (Nat.le_of_lt raised) larger⟩
    · rename_i kept
      rw [if_neg kept] at larger
      exact ⟨window, rfl, larger⟩

namespace Driven

variable {owner : Owner} {driven final : Driven} {fits : Bool}

/-- When a call doubles the window, the window is not above its maximum before. -/
def Tunable (owner : Owner) (driven : Driven) : LimitCall → Prop
  | .send now rtt minWindows _ =>
    let raised := match owner with
      | .stream => driven
      | .connection => driven.raise minWindows
    raised.control.Tunes now rtt → raised.control.window ≤ raised.control.maxWindow
  | _ => True

/-- What was consumed is within what was received, and that within the limit. -/
structure Sound (owner : Owner) (driven : Driven) : Prop where
  consumed_le : driven.control.consumed ≤ driven.received
  received_le : driven.received ≤ driven.control.maxData
  announced_le : driven.announced = true → driven.control.maxData ≤ driven.control.consumed + driven.control.window
  almostFull_le : owner = .stream → driven.almostFull = true → driven.control.maxData ≤
    driven.control.consumed + driven.control.window

theorem start_sound (owner : Owner) (maxData window maxWindow : Nat) :
    (start maxData window maxWindow).Sound owner where
  consumed_le := Nat.le_refl 0
  received_le := Nat.zero_le _
  announced_le := by simp [start]
  almostFull_le := by simp [start]

theorem Sound.receive (sound : driven.Sound owner) (upTo : Nat) : (driven.receive upTo).Sound owner := by
  rw [Driven.receive]
  split
  · rename_i accepted
    have within : upTo ≤ driven.control.maxData := of_decide_eq_true accepted
    exact ⟨Nat.le_trans sound.consumed_le (Nat.le_max_left _ _),
      Nat.max_le.mpr ⟨sound.received_le, within⟩, sound.announced_le, sound.almostFull_le⟩
  · exact sound

theorem addConsumed_spec {count : Nat} (added : control.addConsumed count = some next) :
    next = { control with consumed := control.consumed + count } := by
  obtain ⟨total, sum, rfl⟩ := Option.map_eq_some_iff.mp added
  rw [addU64_spec sum]

theorem shouldUpdateMaxData_le (update : control.shouldUpdateMaxData = some true) :
    control.maxData ≤ control.consumed + control.window := by
  obtain ⟨available, difference, small⟩ := Option.map_eq_some_iff.mp update
  obtain ⟨_, rfl⟩ := subChecked_spec difference
  rw [decide_eq_true_eq] at small
  omega

section

variable (sound : driven.Sound owner)

include sound

theorem Sound.addConsumed (count : Nat) : Sound owner { driven with control := { driven.control with
      consumed := driven.control.consumed + min count (driven.received - driven.control.consumed) } } := by
  have read := Nat.min_le_right count (driven.received - driven.control.consumed)
  have below := sound.consumed_le
  constructor
  · show driven.control.consumed + _ ≤ driven.received
    omega
  · exact sound.received_le
  · intro announced
    have limit := sound.announced_le announced
    show driven.control.maxData ≤ driven.control.consumed + _ + driven.control.window
    omega
  · intro isStream full
    have limit := sound.almostFull_le isStream full
    show driven.control.maxData ≤ driven.control.consumed + _ + driven.control.window
    omega

theorem Sound.consume {count : Nat} {sizeKnown : Bool} (consumed : driven.consume count sizeKnown = some final) :
    final.Sound owner ∧ final.control.maxData = driven.control.maxData := by
  obtain ⟨control, added, rest⟩ := Option.bind_eq_some_iff.mp consumed
  cases addConsumed_spec added
  have read := sound.addConsumed count
  split at rest
  · cases rest
    exact ⟨read, rfl⟩
  · obtain ⟨update, decided, result⟩ := Option.bind_eq_some_iff.mp rest
    cases result
    refine ⟨⟨read.consumed_le, read.received_le, read.announced_le, ?_⟩, rfl⟩
    intro isStream full
    rcases (Bool.or_eq_true _ _).mp full with earlier | now
    · exact read.almostFull_le isStream earlier
    · rw [now] at decided
      exact shouldUpdateMaxData_le decided

theorem Sound.commit (larger : driven.control.maxData ≤ driven.control.consumed + driven.control.window)
    (within : driven.control.Tunes now rtt → driven.control.window ≤ driven.control.maxWindow)
    (committed : driven.commit now rtt fits = some final) :
    final.Sound owner ∧ driven.control.maxData ≤ final.control.maxData := by
  obtain ⟨control, tuned, rest⟩ := Option.bind_eq_some_iff.mp committed
  obtain ⟨_, _, result⟩ := Option.bind_eq_some_iff.mp rest
  obtain ⟨window, rfl, grown⟩ := autotuneWindow_spec tuned within
  have limit : driven.control.maxData ≤ driven.control.consumed + window :=
    Nat.le_trans larger (Nat.add_le_add_left grown _)
  split at result
  · obtain ⟨control, updated, result⟩ := Option.bind_eq_some_iff.mp result
    cases result
    cases updateMaxData_spec updated
    exact ⟨⟨sound.consumed_le, Nat.le_trans sound.received_le limit, fun _ => Nat.le_refl _,
      fun _ _ => Nat.le_refl _⟩, limit⟩
  · cases result
    exact ⟨⟨sound.consumed_le, sound.received_le, fun _ => limit, fun _ _ => limit⟩, Nat.le_refl _⟩

end

theorem Sound.raise (sound : driven.Sound .connection) (minWindows : List Nat) :
    (driven.raise minWindows).Sound .connection ∧
      (driven.raise minWindows).control.maxData = driven.control.maxData := by
  obtain ⟨window, folded, larger⟩ := foldl_ensureWindowLowerBound driven.control minWindows
  rw [Driven.raise, folded]
  refine ⟨⟨sound.consumed_le, sound.received_le, fun announced => ?_, fun isStream => nomatch isStream⟩, rfl⟩
  exact Nat.le_trans (sound.announced_le announced) (Nat.add_le_add_left larger _)

theorem Sound.send (sound : driven.Sound owner) {minWindows : List Nat}
    (tunable : driven.Tunable owner (.send now rtt minWindows fits))
    (stepped : (machine owner).step driven (.send now rtt minWindows fits) = some final) :
    final.Sound owner ∧ driven.control.maxData ≤ final.control.maxData := by
  cases owner with
  | stream =>
    change driven.sendStream now rtt fits = some final at stepped
    rw [sendStream] at stepped
    split at stepped
    · rename_i full
      exact sound.commit (sound.almostFull_le rfl full) tunable stepped
    · cases stepped
      exact ⟨sound, Nat.le_refl _⟩
  | connection =>
    obtain ⟨raisedSound, same⟩ := sound.raise minWindows
    change driven.sendConnection now rtt minWindows fits = some final at stepped
    rw [← same]
    rw [sendConnection] at stepped
    split at stepped
    · obtain ⟨limit, sum, stepped⟩ := Option.bind_eq_some_iff.mp stepped
      split at stepped
      · rename_i larger
        rw [maxDataNext_spec sum] at larger
        exact raisedSound.commit (Nat.le_of_lt larger) tunable stepped
      · cases stepped
        exact ⟨raisedSound, Nat.le_refl _⟩
    · cases stepped
      exact ⟨raisedSound, Nat.le_refl _⟩

theorem Sound.step (sound : driven.Sound owner) {call : LimitCall} (tunable : driven.Tunable owner call)
    (stepped : (machine owner).step driven call = some final) :
    final.Sound owner ∧ driven.control.maxData ≤ final.control.maxData := by
  cases call with
  | receive upTo =>
    cases stepped
    refine ⟨sound.receive upTo, Nat.le_of_eq ?_⟩
    rw [Driven.receive]
    split <;> rfl
  | consume count sizeKnown =>
    obtain ⟨finalSound, same⟩ := sound.consume stepped
    exact ⟨finalSound, Nat.le_of_eq same.symm⟩
  | lost =>
    cases stepped
    refine ⟨⟨sound.consumed_le, sound.received_le, sound.announced_le, ?_⟩, Nat.le_refl _⟩
    intro isStream full
    rcases (Bool.or_eq_true _ _).mp full with earlier | announced
    · exact sound.almostFull_le isStream earlier
    · exact sound.announced_le announced
  | send now rtt minWindows fits => exact sound.send tunable stepped

section Configured

/-- Offsets of at most `2 ^ 62`, and a window that no update cuts. -/
structure Configured (owner : Owner) (driven : Driven) : Prop where
  sound : driven.Sound owner
  window_le : driven.control.window ≤ driven.control.maxWindow
  maxWindow_le : driven.control.maxWindow ≤ 2 ^ 62
  received_le : driven.received ≤ 2 ^ 62

/-- Data arrives at offsets up to `2 ^ 62`, and no lower bound for the window is above its maximum. -/
def Fits (driven : Driven) : LimitCall → Prop
  | .receive upTo => upTo ≤ 2 ^ 62
  | .send _ _ minWindows _ => ∀ minWindow ∈ minWindows, minWindow ≤ driven.control.maxWindow
  | _ => True

variable {minWindows : List Nat}

theorem foldl_ensureWindowLowerBound_le {bound : Nat}
    (fits : ∀ minWindow ∈ minWindows, minWindow ≤ bound) (window : control.window ≤ bound) :
    (minWindows.foldl ensureWindowLowerBound control).window ≤ bound := by
  induction minWindows generalizing control with
  | nil => exact window
  | cons minWindow rest ih =>
    obtain ⟨first, others⟩ := List.forall_mem_cons.mp fits
    apply ih others
    rw [ensureWindowLowerBound]
    split
    · exact first
    · exact window

theorem Configured.raise (configured : driven.Configured .connection)
    (bounded : ∀ minWindow ∈ minWindows, minWindow ≤ driven.control.maxWindow) :
    (driven.raise minWindows).Configured .connection := by
  obtain ⟨window, folded, _⟩ := foldl_ensureWindowLowerBound driven.control minWindows
  have within := foldl_ensureWindowLowerBound_le bounded configured.window_le
  rw [folded] at within
  refine ⟨(configured.sound.raise minWindows).1, ?_, ?_, configured.received_le⟩
  · rw [Driven.raise, folded]
    exact within
  · rw [Driven.raise, folded]
    exact configured.maxWindow_le

section

variable (configured : driven.Configured owner)

include configured

theorem Configured.autotuneWindow_exists (now rtt : Nat) :
    ∃ window, driven.control.autotuneWindow now rtt = some { driven.control with window } ∧
      window ≤ driven.control.maxWindow := by
  rw [autotuneWindow]
  split
  · exact ⟨driven.control.window, rfl, configured.window_le⟩
  · split
    · have small : driven.control.window * windowIncreaseFactor < 2 ^ 64 := by
        have := configured.window_le
        have := configured.maxWindow_le
        rw [windowIncreaseFactor]
        omega
      exact ⟨_, if_pos small, Nat.min_le_right _ _⟩
    · exact ⟨driven.control.window, rfl, configured.window_le⟩

theorem Configured.maxDataNext_exists {window : Nat}
    (within : window ≤ driven.control.maxWindow) :
    maxDataNext { driven.control with window } = some (driven.control.consumed + window) := by
  have := configured.sound.consumed_le
  have := configured.received_le
  have := configured.maxWindow_le
  apply addU64_of_lt
  show driven.control.consumed + window < 2 ^ 64
  omega

theorem Configured.commit_exists (now rtt : Nat) (fits : Bool) :
    ∃ final, driven.commit now rtt fits = some final ∧ final.received = driven.received ∧
      final.control.window ≤ driven.control.maxWindow ∧ final.control.maxWindow = driven.control.maxWindow := by
  obtain ⟨window, tuned, within⟩ := configured.autotuneWindow_exists now rtt
  have next := configured.maxDataNext_exists within
  simp only [Driven.commit, tuned, next, Option.bind_eq_bind, Option.bind_some]
  cases fits with
  | false => exact ⟨_, rfl, rfl, within, rfl⟩
  | true =>
    simp only [updateMaxData, next, Option.map_some, Option.bind_some, if_true]
    exact ⟨_, rfl, rfl, within, rfl⟩

theorem Configured.consume_exists (count : Nat) (sizeKnown : Bool) :
    ∃ final, driven.consume count sizeKnown = some final ∧ final.received = driven.received ∧
      final.control.window = driven.control.window ∧ final.control.maxWindow = driven.control.maxWindow := by
  have read := configured.sound.addConsumed count
  have reached : driven.control.consumed + min count (driven.received - driven.control.consumed) ≤
      driven.received := read.consumed_le
  have := configured.received_le
  have small : driven.control.consumed + min count (driven.received - driven.control.consumed) < 2 ^ 64 := by
    omega
  have available := subChecked_of_le (Nat.le_trans read.consumed_le read.received_le)
  rw [Driven.consume, addConsumed_of_lt small]
  cases sizeKnown with
  | true => exact ⟨_, rfl, rfl, rfl, rfl⟩
  | false =>
    simp only [Option.bind_eq_bind, Option.bind_some, shouldUpdateMaxData, available, Option.map_some]
    exact ⟨_, rfl, rfl, rfl, rfl⟩

theorem Configured.send_exists
    (bounded : ∀ minWindow ∈ minWindows, minWindow ≤ driven.control.maxWindow) (now rtt : Nat) (fits : Bool) :
    ∃ final, (machine owner).step driven (.send now rtt minWindows fits) = some final ∧
      final.received = driven.received ∧ final.control.window ≤ driven.control.maxWindow ∧
      final.control.maxWindow = driven.control.maxWindow := by
  cases owner with
  | stream =>
    show ∃ final, driven.sendStream now rtt fits = some final ∧ _
    rw [sendStream]
    split
    · exact configured.commit_exists now rtt fits
    · exact ⟨driven, rfl, rfl, configured.window_le, rfl⟩
  | connection =>
    have raised := configured.raise bounded
    obtain ⟨_, folded, _⟩ := foldl_ensureWindowLowerBound driven.control minWindows
    have same : (driven.raise minWindows).control.maxWindow = driven.control.maxWindow := by
      rw [Driven.raise, folded]
    rw [← same]
    show ∃ final, driven.sendConnection now rtt minWindows fits = some final ∧ _
    rw [sendConnection]
    split
    · rw [raised.maxDataNext_exists raised.window_le]
      simp only [Option.bind_eq_bind, Option.bind_some]
      split
      · exact raised.commit_exists now rtt fits
      · exact ⟨_, rfl, rfl, raised.window_le, rfl⟩
    · exact ⟨_, rfl, rfl, raised.window_le, rfl⟩

theorem Configured.tunable {call : LimitCall}
    (bounded : driven.Fits call) : driven.Tunable owner call := by
  cases call with
  | send now rtt minWindows fits =>
    cases owner with
    | stream => exact fun _ => configured.window_le
    | connection => exact fun _ => (configured.raise bounded).window_le
  | _ => trivial

theorem Configured.step (call : LimitCall) (bounded : driven.Fits call) :
    ∃ next, (machine owner).step driven call = some next ∧ next.Configured owner := by
  have tunable := configured.tunable bounded
  cases call with
  | receive upTo =>
    refine ⟨_, rfl, configured.sound.receive upTo, ?_, ?_, ?_⟩ <;> rw [Driven.receive] <;> split
    · exact configured.window_le
    · exact configured.window_le
    · exact configured.maxWindow_le
    · exact configured.maxWindow_le
    · exact Nat.max_le.mpr ⟨configured.received_le, bounded⟩
    · exact configured.received_le
  | consume count sizeKnown =>
    obtain ⟨next, stepped, received, window, maxWindow⟩ := configured.consume_exists count sizeKnown
    refine ⟨next, stepped, (configured.sound.step tunable stepped).1, ?_, ?_, ?_⟩
    · rw [window, maxWindow]
      exact configured.window_le
    · rw [maxWindow]
      exact configured.maxWindow_le
    · rw [received]
      exact configured.received_le
  | lost =>
    exact ⟨_, rfl, (configured.sound.step tunable rfl).1, configured.window_le,
      configured.maxWindow_le, configured.received_le⟩
  | send now rtt minWindows fits =>
    obtain ⟨next, stepped, received, window, maxWindow⟩ := configured.send_exists bounded now rtt fits
    refine ⟨next, stepped, (configured.sound.step tunable stepped).1, ?_, ?_, ?_⟩
    · rw [maxWindow]
      exact window
    · rw [maxWindow]
      exact configured.maxWindow_le
    · rw [received]
      exact configured.received_le

end

/-- With a window that is at most its maximum, no lower bound above it, and offsets that fit into a varint, no call of a
run overflows, nothing is consumed that was not received, nothing received that was not allowed, and the window stays
within its maximum. -/
theorem configured_control_returns (owner : Owner) (maxData window maxWindow : Nat) (calls : List LimitCall)
    (within : window ≤ maxWindow) (small : maxWindow ≤ 2 ^ 62)
    (bounded : (machine owner).Guarded Fits (start maxData window maxWindow) calls) :
    ∃ final, (machine owner).run (start maxData window maxWindow) calls = some final ∧ final.Sound owner ∧
      final.control.window ≤ final.control.maxWindow := by
  have initial : (start maxData window maxWindow).Configured owner :=
    ⟨start_sound owner maxData window maxWindow, within, small, Nat.zero_le _⟩
  obtain ⟨final, completed, configured⟩ := (machine owner).run_total_of_guarded
    (fun driven call configured bounded => Configured.step configured call bounded) initial bounded
  exact ⟨final, completed, configured.sound, configured.window_le⟩

theorem configured_control_returns_doubling : ∃ final, (machine .stream).run (start 100 100 400)
        [.receive 60, .consume 60 false, .send 0 100 [] true, .receive 130] = some final ∧ final.Sound .stream ∧
      final.control.window ≤ final.control.maxWindow :=
  configured_control_returns .stream 100 100 400 _ (by decide) (by decide)
    ⟨show 60 ≤ 2 ^ 62 by decide, fun _ _ => ⟨trivial, fun _ _ => ⟨nofun, fun _ _ =>
      ⟨show 130 ≤ 2 ^ 62 by decide, fun _ _ => trivial⟩⟩⟩⟩

end Configured

end Driven

end FlowControl

end Quiche
