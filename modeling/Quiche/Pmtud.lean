import Mathlib.Order.Monotone.Basic
import Quiche.Path

namespace Quiche

structure Pmtud where
  pmtu : Option Nat
  probeSize : Nat
  maximumSupportedMtu : Nat
  smallestFailedProbeSize : Option Nat
  largestSuccessfulProbeSize : Option Nat
  inFlight : Bool
deriving DecidableEq

namespace Pmtud

def new (maximumSupportedMtu : Nat) : Pmtud where
  pmtu := none
  probeSize := maximumSupportedMtu
  maximumSupportedMtu := maximumSupportedMtu
  smallestFailedProbeSize := none
  largestSuccessfulProbeSize := none
  inFlight := false

def shouldProbe (pmtud : Pmtud) : Bool :=
  !pmtud.inFlight && pmtud.pmtu.isNone && pmtud.smallestFailedProbeSize != some minClientInitialLen

def setProbeSize (pmtud : Pmtud) (probeSize : Nat) : Pmtud :=
  { pmtud with probeSize := min probeSize pmtud.maximumSupportedMtu }

def getProbeSize (pmtud : Pmtud) : Nat := pmtud.probeSize

def getCurrentMtu (pmtud : Pmtud) : Nat := pmtud.largestSuccessfulProbeSize.getD minClientInitialLen

def getPmtu (pmtud : Pmtud) : Option Nat := pmtud.pmtu

def restartPmtud (pmtud : Pmtud) : Pmtud :=
  { pmtud.setProbeSize pmtud.maximumSupportedMtu with
    smallestFailedProbeSize := none
    largestSuccessfulProbeSize := none
    pmtu := none }

/-- Half of a sum of two sizes; `none` is the overflow of the sum. -/
def halfway (low high : Nat) : Option Nat := (addU64 low high).map (· / 2)

def updateProbeSize (pmtud : Pmtud) : Option Pmtud :=
  match pmtud.smallestFailedProbeSize, pmtud.largestSuccessfulProbeSize with
  | some failedProbeSize, some successfulProbeSize =>
    if failedProbeSize ≤ successfulProbeSize then some pmtud.restartPmtud
    else if failedProbeSize - successfulProbeSize ≤ 1 then
      some { pmtud with pmtu := some successfulProbeSize, probeSize := successfulProbeSize }
    else do
      return { pmtud with probeSize := ← halfway successfulProbeSize failedProbeSize }
  | some failedProbeSize, none => do
    return { pmtud with probeSize := ← halfway minClientInitialLen failedProbeSize }
  | none, some successfulProbeSize =>
    some { pmtud with pmtu := some successfulProbeSize, probeSize := successfulProbeSize }
  | none, none => some { pmtud with probeSize := pmtud.maximumSupportedMtu }

def setInFlight (pmtud : Pmtud) (inFlight : Bool) : Pmtud := { pmtud with inFlight }

/-- `std::cmp::max(Some(size), other)`, where nothing is less than any size. -/
def maxSome (size : Nat) : Option Nat → Nat
  | none => size
  | some other => max size other

def successfulProbe (pmtud : Pmtud) (probeSize : Nat) : Option (Option Nat × Pmtud) := do
  let largest := maxSome (min probeSize pmtud.maximumSupportedMtu) pmtud.largestSuccessfulProbeSize
  let pmtud ← { pmtud with largestSuccessfulProbeSize := some largest }.updateProbeSize
  let pmtud := pmtud.setInFlight false
  return (pmtud.largestSuccessfulProbeSize, pmtud)

def failedProbe (pmtud : Pmtud) (probeSize : Nat) : Option Pmtud := do
  let probeSize := max probeSize minClientInitialLen
  let smallest :=
    match pmtud.smallestFailedProbeSize with
    | none => probeSize
    | some existingSize => min probeSize existingSize
  let pmtud ← { pmtud with smallestFailedProbeSize := some smallest }.updateProbeSize
  return pmtud.setInFlight false

def revalidatePmtu (pmtud : Pmtud) : Pmtud :=
  match pmtud.pmtu with
  | some pmtu => { pmtud.setProbeSize pmtu with pmtu := none }
  | none => pmtud

/-- A probe goes out on a path of MTU `pathMtu`, and what becomes of it is reported. -/
def probe (pmtud : Pmtud) (pathMtu : Nat) : Option Pmtud :=
  let sent := pmtud.setInFlight true
  let size := pmtud.getProbeSize
  if size ≤ pathMtu then (sent.successfulProbe size).map Prod.snd else sent.failedProbe size

/-- At most `turns` probes while there is one to send, with their sizes. -/
def search (pathMtu : Nat) : Nat → Pmtud → Option (Pmtud × List Nat)
  | 0, pmtud => some (pmtud, [])
  | turns + 1, pmtud =>
    if pmtud.shouldProbe then do
      let (last, sizes) ← search pathMtu turns (← pmtud.probe pathMtu)
      return (last, pmtud.getProbeSize :: sizes)
    else some (pmtud, [])

example : ((new 1500).search 1380 20).map (·.1.getPmtu) = some (some 1380) := by decide

variable {pmtud last : Pmtud} {maximum pathMtu size failed successful mtu turns : Nat} {sizes : List Nat}

section Probes

def searching (maximum size : Nat) (failed successful : Option Nat) : Pmtud where
  pmtu := none
  probeSize := size
  maximumSupportedMtu := maximum
  smallestFailedProbeSize := failed
  largestSuccessfulProbeSize := successful
  inFlight := false

/-- The end of a search. -/
def found (maximum mtu : Nat) (failed : Option Nat) : Pmtud where
  pmtu := some mtu
  probeSize := mtu
  maximumSupportedMtu := maximum
  smallestFailedProbeSize := failed
  largestSuccessfulProbeSize := some mtu
  inFlight := false

/-- After a failure, while no probe was successful. -/
def fall (maximum failed : Nat) : Option Pmtud :=
  (halfway minClientInitialLen failed).map fun size => searching maximum size (some failed) none

def narrow (maximum successful failed : Nat) : Option Pmtud :=
  if failed - successful ≤ 1 then some (found maximum successful (some failed))
  else (halfway successful failed).map fun size => searching maximum size (some failed) (some successful)

theorem probe_new (supported : minClientInitialLen ≤ maximum) : (new maximum).probe pathMtu =
      if maximum ≤ pathMtu then some (found maximum maximum none) else fall maximum maximum := by
  rw [probe, getProbeSize, show (new maximum).probeSize = maximum from rfl]
  split
  · simp [successfulProbe, maxSome, updateProbeSize, setInFlight, new, found]
  · simp only [failedProbe, setInFlight, new, Nat.max_eq_left supported, updateProbeSize, fall]
    cases halfway minClientInitialLen maximum <;> rfl

variable {low high : Nat}

theorem update_both (pmtu : Option Nat) (flight : Bool) (less : low < high) :
    (updateProbeSize ⟨pmtu, size, maximum, some high, some low, flight⟩) =
      if high - low ≤ 1 then some ⟨some low, low, maximum, some high, some low, flight⟩
      else (halfway low high).map fun size => ⟨pmtu, size, maximum, some high, some low, flight⟩ := by
  simp only [updateProbeSize, if_neg (Nat.not_le.mpr less)]
  split
  · rfl
  · cases halfway low high <;> rfl

theorem probe_falling (low : minClientInitialLen ≤ size) (less : size < failed) (high : size ≤ maximum) :
    (searching maximum size (some failed) none).probe pathMtu =
      if size ≤ pathMtu then narrow maximum size failed else fall maximum size := by
  rw [probe, getProbeSize, show (searching maximum size (some failed) none).probeSize = size from rfl]
  split
  · simp only [successfulProbe, setInFlight, searching, maxSome, Nat.min_eq_left high, update_both _ _ less, narrow]
    split
    · rfl
    · cases halfway size failed <;> rfl
  · simp only [failedProbe, setInFlight, searching, Nat.max_eq_left low, Nat.min_eq_left (Nat.le_of_lt less),
      updateProbeSize, fall]
    cases halfway minClientInitialLen size <;> rfl

theorem probe_narrowing (low : minClientInitialLen ≤ size) (above : successful < size) (less : size < failed)
    (high : size ≤ maximum) : (searching maximum size (some failed) (some successful)).probe pathMtu =
      if size ≤ pathMtu then narrow maximum size failed else narrow maximum successful size := by
  rw [probe, getProbeSize, show (searching maximum size (some failed) (some successful)).probeSize = size from rfl]
  split
  · simp only [successfulProbe, setInFlight, searching, maxSome, Nat.min_eq_left high,
      Nat.max_eq_left (Nat.le_of_lt above), update_both _ _ less, narrow]
    split
    · rfl
    · cases halfway size failed <;> rfl
  · simp only [failedProbe, setInFlight, searching, Nat.max_eq_left low, Nat.min_eq_left (Nat.le_of_lt less),
      update_both _ _ above, narrow]
    split
    · rfl
    · cases halfway successful size <;> rfl

theorem probe_revalidating {bound : Option Nat} (low : minClientInitialLen ≤ mtu) (high : mtu ≤ maximum)
    (above : bound = none ∨ bound = some (mtu + 1)) : (searching maximum mtu bound (some mtu)).probe pathMtu =
      if mtu ≤ pathMtu then some (found maximum mtu bound) else some (new maximum) := by
  rw [probe, getProbeSize, show (searching maximum mtu bound (some mtu)).probeSize = mtu from rfl]
  split
  · rcases above with rfl | rfl
    · simp [successfulProbe, setInFlight, searching, maxSome, Nat.min_eq_left high, updateProbeSize, found]
    · simp [successfulProbe, setInFlight, searching, maxSome, Nat.min_eq_left high, found,
        update_both _ _ (Nat.lt_succ_self mtu)]
  · rcases above with rfl | rfl <;>
      simp [failedProbe, setInFlight, searching, Nat.max_eq_left low, updateProbeSize, restartPmtud, setProbeSize, new]

theorem halfway_of_lt (fits : low + high < 2 ^ 64) : halfway low high = some ((low + high) / 2) := by
  rw [halfway, addU64_of_lt fits, Option.map_some]

theorem halfway_spec {middle : Nat} (half : halfway low high = some middle) : middle = (low + high) / 2 := by
  obtain ⟨sum, added, same⟩ := Option.map_eq_some_iff.mp half
  rw [← same, addU64_spec added]

theorem halfway_eq_none (past : 2 ^ 64 ≤ low + high) : halfway low high = none := by
  rw [halfway, addU64, if_neg (Nat.not_lt.mpr past), Option.map_none]

end Probes

section Stages

/-- The states of a search on a path of MTU `pathMtu`: sizes that failed are above it, sizes
that were successful are not. -/
inductive Stage (maximum pathMtu : Nat) : Pmtud → Prop where
  | fresh : Stage maximum pathMtu (new maximum)
  | falling {failed : Nat} (low : minClientInitialLen ≤ failed) (fails : pathMtu < failed) (high : failed ≤ maximum) :
      Stage maximum pathMtu (searching maximum ((minClientInitialLen + failed) / 2) (some failed) none)
  | narrowing {successful failed : Nat} (low : minClientInitialLen ≤ successful) (takes : successful ≤ pathMtu)
      (fails : pathMtu < failed) (high : failed ≤ maximum) (wide : successful + 1 < failed) :
      Stage maximum pathMtu (searching maximum ((successful + failed) / 2) (some failed) (some successful))
  | revalidating {mtu : Nat} {bound : Option Nat} (low : minClientInitialLen ≤ mtu) (high : mtu ≤ maximum)
      (above : bound = none ∨ bound = some (mtu + 1)) (takes : mtu ≤ pathMtu → mtu = maximum ∧ bound = none) :
      Stage maximum pathMtu (searching maximum mtu bound (some mtu))
  | found {mtu : Nat} {bound : Option Nat} (low : minClientInitialLen ≤ mtu) (takes : mtu ≤ pathMtu)
      (above : bound = none ∧ mtu = maximum ∨ bound = some (mtu + 1) ∧ mtu = pathMtu ∧ mtu < maximum) :
      Stage maximum pathMtu (found maximum mtu bound)

theorem fall_stage (low : minClientInitialLen ≤ failed) (fails : pathMtu < failed) (high : failed ≤ maximum) :
    ∀ next ∈ fall maximum failed, Stage maximum pathMtu next := by
  intro next fell
  obtain ⟨size, half, same⟩ := Option.map_eq_some_iff.mp fell
  rw [← same, halfway_spec half]
  exact .falling low fails high

theorem narrow_stage (low : minClientInitialLen ≤ successful) (takes : successful ≤ pathMtu) (fails : pathMtu < failed)
    (high : failed ≤ maximum) : ∀ next ∈ narrow maximum successful failed, Stage maximum pathMtu next := by
  intro next narrowed
  rw [narrow] at narrowed
  split at narrowed
  · cases narrowed
    have adjacent : failed = successful + 1 := by omega
    have last : successful = pathMtu := by omega
    exact .found low takes (.inr ⟨congrArg some adjacent, last, by omega⟩)
  · rename_i wide
    obtain ⟨size, half, same⟩ := Option.map_eq_some_iff.mp narrowed
    rw [← same, halfway_spec half]
    exact .narrowing low takes fails high (by omega)

section

variable (stage : Stage maximum pathMtu pmtud) (supported : minClientInitialLen ≤ maximum)

include stage supported

theorem Stage.probe
    (should : pmtud.shouldProbe = true) : (minClientInitialLen ≤ pmtud.getProbeSize ∧ pmtud.getProbeSize ≤ maximum) ∧
      ∀ next ∈ pmtud.probe pathMtu, Stage maximum pathMtu next := by
  cases stage with
  | fresh =>
    refine ⟨⟨supported, Nat.le_refl _⟩, ?_⟩
    rw [probe_new supported]
    split
    · rename_i takes
      intro next same
      cases same
      exact .found supported takes (.inl ⟨rfl, rfl⟩)
    · rename_i fails
      exact fall_stage supported (Nat.not_le.mp fails) (Nat.le_refl _)
  | @falling failed low fails high =>
    have more : failed ≠ minClientInitialLen := by
      intro same
      simp [shouldProbe, searching, same] at should
    have above : minClientInitialLen ≤ (minClientInitialLen + failed) / 2 := by omega
    have less : (minClientInitialLen + failed) / 2 < failed := by omega
    have within : (minClientInitialLen + failed) / 2 ≤ maximum := by omega
    refine ⟨⟨above, within⟩, ?_⟩
    rw [probe_falling above less within]
    split
    · rename_i takes
      exact narrow_stage above takes fails high
    · rename_i tooLarge
      exact fall_stage above (Nat.not_le.mp tooLarge) within
  | @narrowing successful failed low takes fails high wide =>
    have above : successful < (successful + failed) / 2 := by omega
    have less : (successful + failed) / 2 < failed := by omega
    have within : (successful + failed) / 2 ≤ maximum := by omega
    have least : minClientInitialLen ≤ (successful + failed) / 2 := by omega
    refine ⟨⟨least, within⟩, ?_⟩
    rw [probe_narrowing least above less within]
    split
    · rename_i took
      exact narrow_stage least took fails high
    · rename_i tooLarge
      exact narrow_stage low takes (Nat.not_le.mp tooLarge) within
  | @revalidating mtu bound low high above takes =>
    refine ⟨⟨low, high⟩, ?_⟩
    rw [probe_revalidating low high above]
    split
    · rename_i took
      intro next same
      cases same
      obtain ⟨whole, untaken⟩ := takes took
      exact .found low took (.inl ⟨untaken, whole⟩)
    · intro next same
      cases same
      exact .fresh
  | found => simp [shouldProbe, Pmtud.found] at should

theorem Stage.search (searched : pmtud.search pathMtu turns = some (last, sizes)) :
    Stage maximum pathMtu last ∧ ∀ size ∈ sizes, minClientInitialLen ≤ size ∧ size ≤ maximum := by
  induction turns generalizing pmtud sizes with
  | zero =>
    cases searched
    exact ⟨stage, by simp⟩
  | succ turns ih =>
    rw [Pmtud.search] at searched
    split at searched
    · rename_i should
      obtain ⟨inRange, kept⟩ := stage.probe supported should
      obtain ⟨next, probed, continued⟩ := Option.bind_eq_some_iff.mp searched
      obtain ⟨⟨final, rest⟩, ended, same⟩ := Option.bind_eq_some_iff.mp continued
      cases same
      obtain ⟨ends, restInRange⟩ := ih (kept next probed) ended
      exact ⟨ends, List.forall_mem_cons.mpr ⟨inRange, restInRange⟩⟩
    · cases searched
      exact ⟨stage, by simp⟩

end

/-- What the search has to find. -/
structure Settled (maximum pathMtu : Nat) (pmtud : Pmtud) : Prop where
  within : minClientInitialLen ≤ pathMtu → pmtud.getPmtu = some (min pathMtu maximum)
  below : pathMtu < minClientInitialLen → pmtud.getPmtu = none ∧ pmtud.getCurrentMtu = minClientInitialLen

/-- The states in which a search stops. -/
inductive Stopped (maximum pathMtu : Nat) : Pmtud → Prop where
  | fallen {failed : Nat} (least : failed = minClientInitialLen) (fails : pathMtu < failed) (high : failed ≤ maximum) :
      Stopped maximum pathMtu (searching maximum ((minClientInitialLen + failed) / 2) (some failed) none)
  | found {mtu : Nat} {bound : Option Nat} (low : minClientInitialLen ≤ mtu) (takes : mtu ≤ pathMtu)
      (above : bound = none ∧ mtu = maximum ∨ bound = some (mtu + 1) ∧ mtu = pathMtu ∧ mtu < maximum) :
      Stopped maximum pathMtu (found maximum mtu bound)

theorem Stage.stopped (stage : Stage maximum pathMtu pmtud) (stopped : pmtud.shouldProbe = false) :
    Stopped maximum pathMtu pmtud := by
  cases stage with
  | fresh => simp [shouldProbe, new] at stopped
  | @falling failed low fails high =>
    have least : failed = minClientInitialLen := by simpa [shouldProbe, searching] using stopped
    exact .fallen least fails high
  | @narrowing successful failed low takes fails high wide =>
    have least : failed = minClientInitialLen := by simpa [shouldProbe, searching] using stopped
    omega
  | @revalidating mtu bound low high above takes =>
    rcases above with rfl | rfl
    · simp [shouldProbe, searching] at stopped
    · have least : mtu + 1 = minClientInitialLen := by simpa [shouldProbe, searching] using stopped
      omega
  | found low takes above => exact .found low takes above

theorem Stage.settled (stage : Stage maximum pathMtu pmtud) (stopped : pmtud.shouldProbe = false) :
    Settled maximum pathMtu pmtud := by
  cases stage.stopped stopped with
  | fallen least fails high => exact ⟨fun above => absurd above (by omega), fun _ => ⟨rfl, rfl⟩⟩
  | @found mtu bound low takes above =>
    have smaller : mtu = min pathMtu maximum := by omega
    exact ⟨fun _ => congrArg some smaller, fun below => absurd below (by omega)⟩

end Stages

section Termination

/-- The search for the path MTU ends. -/
def Terminates (pathMtu : Nat) (pmtud : Pmtud) : Prop :=
  ∃ turns last sizes, pmtud.search pathMtu turns = some (last, sizes) ∧ last.shouldProbe = false

/-- The call returns, and the search from there ends. -/
def Ends (pathMtu : Nat) (returned : Option Pmtud) : Prop := ∃ next, returned = some next ∧ Terminates pathMtu next

theorem terminates_stopped (stopped : pmtud.shouldProbe = false) : Terminates pathMtu pmtud :=
  ⟨0, pmtud, [], rfl, stopped⟩

theorem terminates_probe (should : pmtud.shouldProbe = true) :
    Terminates pathMtu pmtud ↔ Ends pathMtu (pmtud.probe pathMtu) := by
  constructor
  · intro terminates
    obtain ⟨turns, last, sizes, searched, stopped⟩ := terminates
    cases turns with
    | zero =>
      cases searched
      rw [should] at stopped
      contradiction
    | succ turns =>
      rw [search, if_pos should] at searched
      obtain ⟨next, probed, continued⟩ := Option.bind_eq_some_iff.mp searched
      obtain ⟨⟨final, rest⟩, ended, same⟩ := Option.bind_eq_some_iff.mp continued
      cases same
      exact ⟨next, probed, turns, last, rest, ended, stopped⟩
  · intro ends
    obtain ⟨next, probed, turns, last, sizes, ended, stopped⟩ := ends
    refine ⟨turns + 1, last, pmtud.getProbeSize :: sizes, ?_, stopped⟩
    rw [search, if_pos should, probed]
    simp [ended]

theorem ends_some {next : Pmtud} : Ends pathMtu (some next) ↔ Terminates pathMtu next := by simp [Ends]

theorem ends_found {bound : Option Nat} : Ends pathMtu (some (found maximum mtu bound)) :=
  ends_some.mpr (terminates_stopped (by simp [shouldProbe, found]))

theorem not_ends_none : ¬ Ends pathMtu none := by simp [Ends]

theorem ends_narrow (low : minClientInitialLen ≤ successful) (wide : successful + 1 < failed)
    (high : failed ≤ maximum) (fits : successful + failed < 2 ^ 64) : Ends pathMtu (narrow maximum successful failed) ↔
      Ends pathMtu (if (successful + failed) / 2 ≤ pathMtu then narrow maximum ((successful + failed) / 2) failed
        else narrow maximum successful ((successful + failed) / 2)) := by
  have apart : ¬ failed - successful ≤ 1 := by omega
  have should : (searching maximum ((successful + failed) / 2) (some failed) (some successful)).shouldProbe = true := by
    have more : failed ≠ minClientInitialLen := by omega
    simp [shouldProbe, searching, more]
  rw [narrow, if_neg apart, halfway_of_lt fits, Option.map_some, ends_some, terminates_probe should,
    probe_narrowing (by omega) (by omega) (by omega) (by omega)]

theorem ends_fall (low : minClientInitialLen < failed) (high : failed ≤ maximum)
    (fits : minClientInitialLen + failed < 2 ^ 64) :
    Ends pathMtu (fall maximum failed) ↔ Ends pathMtu (if (minClientInitialLen + failed) / 2 ≤ pathMtu then
          narrow maximum ((minClientInitialLen + failed) / 2) failed
        else fall maximum ((minClientInitialLen + failed) / 2)) := by
  have should : (searching maximum ((minClientInitialLen + failed) / 2) (some failed) none).shouldProbe = true := by
    have more : failed ≠ minClientInitialLen := by omega
    simp [shouldProbe, searching, more]
  rw [fall, halfway_of_lt fits, Option.map_some, ends_some, terminates_probe should,
    probe_falling (by omega) (by omega) (by omega)]

theorem ends_fall_least : Ends pathMtu (fall maximum minClientInitialLen) :=
  ends_some.mpr (terminates_stopped (by simp [shouldProbe, searching]))

theorem ends_narrow_small (low : minClientInitialLen ≤ successful) (less : successful < failed)
    (high : failed ≤ maximum) (small : failed ≤ 2 ^ 63) : Ends pathMtu (narrow maximum successful failed) := by
  induction width : failed - successful using Nat.strong_induction_on generalizing successful failed with
  | _ _ ih =>
    by_cases wide : successful + 1 < failed
    · rw [ends_narrow low wide high (by omega)]
      split
      · exact ih _ (by omega) (by omega) (by omega) high small rfl
      · exact ih _ (by omega) low (by omega) (by omega) (by omega) rfl
    · rw [narrow, if_pos (by omega)]
      exact ends_found

theorem ends_fall_small (low : minClientInitialLen ≤ failed) (high : failed ≤ maximum) (small : failed ≤ 2 ^ 63) :
    Ends pathMtu (fall maximum failed) := by
  induction failed using Nat.strong_induction_on with
  | _ failed ih =>
    rcases Nat.eq_or_lt_of_le low with same | more
    · rw [← same]
      exact ends_fall_least
    · have within : minClientInitialLen + failed < 2 ^ 64 := by omega
      rw [ends_fall more high within]
      split
      · exact ends_narrow_small (by omega) (by omega) high small
      · exact ih _ (by omega) (by omega) (by omega) (by omega)

/-- The sizes that halving the distance to `maximum` reaches from the least one. -/
def climb (maximum : Nat) : Nat → Nat
  | 0 => minClientInitialLen
  | turn + 1 => (climb maximum turn + maximum) / 2

theorem climb_bounds (supported : minClientInitialLen ≤ maximum) (turn : Nat) :
    minClientInitialLen ≤ climb maximum turn ∧ climb maximum turn ≤ maximum := by
  induction turn with
  | zero => exact ⟨Nat.le_refl _, supported⟩
  | succ turn ih =>
    rw [climb]
    omega

theorem climb_mono (supported : minClientInitialLen ≤ maximum) : Monotone (climb maximum) := by
  apply monotone_nat_of_le_succ
  intro turn
  obtain ⟨_, within⟩ := climb_bounds supported turn
  rw [climb]
  omega

/-- The search can take the largest size at once, or the sums of the sizes that it takes on
the way up to it do not overflow. -/
def Fits (maximum pathMtu : Nat) : Prop := maximum ≤ pathMtu ∨
    ∀ turn, climb maximum turn ≤ max minClientInitialLen pathMtu → climb maximum turn + maximum < 2 ^ 64

section

variable (supported : minClientInitialLen ≤ maximum)

include supported

theorem ends_narrow_climb {turn : Nat}
    (takes : climb maximum turn ≤ pathMtu) (fails : pathMtu < maximum) (small : climb maximum turn < 2 ^ 63) :
    Ends pathMtu (narrow maximum (climb maximum turn) maximum) ↔
      ∀ later, turn ≤ later → climb maximum later ≤ pathMtu → climb maximum later + maximum < 2 ^ 64 := by
  induction width : maximum - climb maximum turn using Nat.strong_induction_on generalizing turn with
  | _ _ ih =>
    obtain ⟨low, _⟩ := climb_bounds supported turn
    by_cases wide : climb maximum turn + 1 < maximum
    · by_cases fits : climb maximum turn + maximum < 2 ^ 64
      · have next : climb maximum (turn + 1) = (climb maximum turn + maximum) / 2 := rfl
        rw [ends_narrow low wide (Nat.le_refl _) fits, ← next]
        split
        · rename_i took
          rw [ih _ (by omega) took (by omega) rfl]
          constructor
          · intro laterFit later from_ bound
            rcases Nat.eq_or_lt_of_le from_ with same | after
            · rwa [← same]
            · exact laterFit later after bound
          · exact fun allFit later from_ => allFit later (Nat.le_of_succ_le from_)
        · rename_i tooLarge
          have above : climb maximum turn < climb maximum (turn + 1) := by omega
          have within : climb maximum (turn + 1) ≤ maximum := by omega
          have half : climb maximum (turn + 1) ≤ 2 ^ 63 := by omega
          refine ⟨fun _ later from_ bound => ?_, fun _ => ends_narrow_small low above within half⟩
          rcases Nat.eq_or_lt_of_le from_ with same | after
          · rwa [← same]
          · have higher : climb maximum (turn + 1) ≤ climb maximum later := climb_mono supported after
            omega
      · have apart : ¬ maximum - climb maximum turn ≤ 1 := by omega
        rw [narrow, if_neg apart, halfway_eq_none (Nat.not_lt.mp fits), Option.map_none]
        exact ⟨fun ends => absurd ends not_ends_none, fun allFit => absurd (allFit turn (Nat.le_refl _) takes) fits⟩
    · rw [narrow, if_pos (by omega)]
      refine ⟨fun _ later _ bound => ?_, fun _ => ends_found⟩
      omega

theorem ends_fall_climb (fails : pathMtu < maximum) :
    Ends pathMtu (fall maximum maximum) ↔
      ∀ turn, climb maximum turn ≤ max minClientInitialLen pathMtu → climb maximum turn + maximum < 2 ^ 64 := by
  by_cases fits : minClientInitialLen + maximum < 2 ^ 64
  · rcases Nat.eq_or_lt_of_le supported with same | more
    · rw [← same]
      refine ⟨fun _ turn _ => ?_, fun _ => ends_fall_least⟩
      obtain ⟨low, high⟩ := climb_bounds (Nat.le_refl minClientInitialLen) turn
      simp only [minClientInitialLen] at *
      omega
    · have first : climb maximum 1 = (minClientInitialLen + maximum) / 2 := rfl
      have least : minClientInitialLen ≤ climb maximum 1 := by omega
      have half : climb maximum 1 ≤ 2 ^ 63 := by omega
      rw [ends_fall more (Nat.le_refl _) fits, ← first]
      split
      · rename_i took
        have only : max minClientInitialLen pathMtu = pathMtu := Nat.max_eq_right (Nat.le_trans least took)
        rw [ends_narrow_climb supported took fails (by omega), only]
        refine ⟨fun laterFit turn bound => ?_, fun allFit later _ => allFit later⟩
        cases turn with
        | zero => exact fits
        | succ turn => exact laterFit _ (Nat.le_add_left 1 turn) bound
      · rename_i tooLarge
        have within : climb maximum 1 ≤ maximum := by omega
        refine ⟨fun _ turn bound => ?_, fun _ => ends_fall_small least within half⟩
        cases turn with
        | zero => exact fits
        | succ turn =>
          have above := climb_mono supported (Nat.le_add_left 1 turn)
          have reached : climb maximum (turn + 1) ≤ minClientInitialLen := by omega
          omega
  · rw [fall, halfway_eq_none (Nat.not_lt.mp fits), Option.map_none]
    exact ⟨fun ends => absurd ends not_ends_none, fun allFit => absurd (allFit 0 (Nat.le_max_left _ _)) fits⟩

theorem terminates_new :
    Terminates pathMtu (new maximum) ↔ Fits maximum pathMtu := by
  have should : (new maximum).shouldProbe = true := by simp [shouldProbe, new]
  rw [terminates_probe should, probe_new supported]
  split
  · rename_i takes
    exact ⟨fun _ => .inl takes, fun _ => ends_found⟩
  · rename_i fails
    rw [ends_fall_climb supported (Nat.not_le.mp fails), Fits, or_iff_right fails]

end

end Termination

section Revalidation

/-- A search on a path of a fixed MTU has ended, the first one or one after
`revalidate_pmtu` since the MTU dropped. -/
inductive Reached (maximum : Nat) : Nat → Pmtud → Prop where
  | first {pathMtu turns : Nat} {last : Pmtud} {sizes : List Nat}
      (searched : (new maximum).search pathMtu turns = some (last, sizes)) (stopped : last.shouldProbe = false) :
      Reached maximum pathMtu last
  | again {before pathMtu turns : Nat} {pmtud last : Pmtud} {sizes : List Nat}
      (reached : Reached maximum before pmtud) (dropped : pathMtu < before)
      (searched : pmtud.revalidatePmtu.search pathMtu turns = some (last, sizes))
      (stopped : last.shouldProbe = false) : Reached maximum pathMtu last

variable {before : Nat}

theorem revalidatePmtu_found (bound : Option Nat) (high : mtu ≤ maximum) :
    (Pmtud.found maximum mtu bound).revalidatePmtu = searching maximum mtu bound (some mtu) := by
  simp [Pmtud.revalidatePmtu, setProbeSize, Pmtud.found, searching, Nat.min_eq_left high]

theorem Stage.revalidatePmtu (stage : Stage maximum before pmtud) (stopped : pmtud.shouldProbe = false)
    (dropped : pathMtu < before) : Stage maximum pathMtu pmtud.revalidatePmtu := by
  cases stage.stopped stopped with
  | fallen least fails high => exact .falling (Nat.le_of_eq least.symm) (Nat.lt_trans dropped fails) high
  | @found mtu bound low takes above =>
    have high : mtu ≤ maximum := by omega
    rw [revalidatePmtu_found bound high]
    refine .revalidating low high (above.imp And.left And.left) fun took => ?_
    rcases above with ⟨rfl, rfl⟩ | ⟨_, same, _⟩
    · exact ⟨rfl, rfl⟩
    · omega

theorem Fits.drop (fits : Fits maximum before) (small : before < minClientInitialLen)
    (supported : minClientInitialLen ≤ maximum) (dropped : pathMtu < before) : Fits maximum pathMtu := by
  rcases fits with large | climbs
  · omega
  · exact .inr fun turn bound => climbs turn (by omega)

theorem terminates_revalidated (stage : Stage maximum before pmtud) (stopped : pmtud.shouldProbe = false)
    (fits : Fits maximum before) (supported : minClientInitialLen ≤ maximum) (dropped : pathMtu < before) :
    Terminates pathMtu pmtud.revalidatePmtu ↔ Fits maximum pathMtu := by
  cases stage.stopped stopped with
  | fallen least fails high =>
    exact ⟨fun _ => fits.drop (by omega) supported dropped, fun _ => terminates_stopped stopped⟩
  | @found mtu bound low takes above =>
    have high : mtu ≤ maximum := by omega
    have limit : bound = none ∨ bound = some (mtu + 1) := above.imp And.left And.left
    have should : (searching maximum mtu bound (some mtu)).shouldProbe = true := by
      have more : mtu + 1 ≠ minClientInitialLen := by omega
      rcases limit with rfl | rfl <;> simp [shouldProbe, searching, more]
    rw [revalidatePmtu_found bound high, terminates_probe should, probe_revalidating low high limit]
    split
    · rename_i took
      have whole : maximum ≤ pathMtu := by omega
      exact ⟨fun _ => .inl whole, fun _ => ends_found⟩
    · rw [ends_some]
      exact terminates_new supported

theorem Reached.spec (reached : Reached maximum pathMtu pmtud) (supported : minClientInitialLen ≤ maximum) :
    Stage maximum pathMtu pmtud ∧ pmtud.shouldProbe = false ∧ Fits maximum pathMtu := by
  induction reached with
  | first searched stopped =>
    have fits := (terminates_new supported).mp ⟨_, _, _, searched, stopped⟩
    exact ⟨(Stage.fresh.search supported searched).1, stopped, fits⟩
  | again reached dropped searched stopped ih =>
    obtain ⟨stage, before, fitted⟩ := ih
    have started := stage.revalidatePmtu before dropped
    have fits := (terminates_revalidated stage before fitted supported dropped).mp ⟨_, _, _, searched, stopped⟩
    exact ⟨(started.search supported searched).1, stopped, fits⟩

/-- The search ends with the path MTU settled, and each probe is of a size within the bounds. -/
def Converges (maximum pathMtu : Nat) (pmtud : Pmtud) : Prop :=
  ∃ turns last sizes, pmtud.search pathMtu turns = some (last, sizes) ∧ last.shouldProbe = false ∧
    Settled maximum pathMtu last ∧ ∀ size ∈ sizes, minClientInitialLen ≤ size ∧ size ≤ maximum

theorem Stage.converges_iff (stage : Stage maximum pathMtu pmtud) (supported : minClientInitialLen ≤ maximum) :
    Converges maximum pathMtu pmtud ↔ Terminates pathMtu pmtud := by
  constructor
  · intro converges
    obtain ⟨turns, last, sizes, searched, stopped, _⟩ := converges
    exact ⟨turns, last, sizes, searched, stopped⟩
  · intro terminates
    obtain ⟨turns, last, sizes, searched, stopped⟩ := terminates
    obtain ⟨ends, inRange⟩ := stage.search supported searched
    exact ⟨turns, last, sizes, searched, stopped, ends.settled stopped, inRange⟩

/-- The search converges, from the start and after any number of drops of the MTU, exactly
when none of its sums overflows. -/
theorem search_converges (supported : minClientInitialLen ≤ maximum) (pathMtu : Nat) :
    (Converges maximum pathMtu (new maximum) ↔ Fits maximum pathMtu) ∧
      ∀ before settled, Reached maximum before settled → pathMtu < before →
        (Converges maximum pathMtu settled.revalidatePmtu ↔ Fits maximum pathMtu) := by
  constructor
  · rw [Stage.fresh.converges_iff supported, terminates_new supported]
  · intro before settled reached dropped
    obtain ⟨stage, stopped, fits⟩ := reached.spec supported
    have started := stage.revalidatePmtu stopped dropped
    rw [started.converges_iff supported, terminates_revalidated stage stopped fits supported dropped]

theorem search_converges_ethernet : (Converges 1472 1400 (new 1472) ↔ Fits 1472 1400) ∧
      ∀ before settled, Reached 1472 before settled → 1400 < before →
        (Converges 1472 1400 settled.revalidatePmtu ↔ Fits 1472 1400) := search_converges (by decide) 1400

/-- Half of the largest sum is past every size. -/
theorem search_overflows : ¬ Converges (2 ^ 64 - 1) 1400 (new (2 ^ 64 - 1)) := by
  intro converges
  have supported : minClientInitialLen ≤ 2 ^ 64 - 1 := by decide
  have terminates := (Stage.fresh.converges_iff supported).mp converges
  rcases (terminates_new supported).mp terminates with large | climbs
  · exact absurd large (by decide)
  · have start := climbs 0 (Nat.le_max_left _ _)
    exact absurd start (by decide)

end Revalidation

end Pmtud

end Quiche
