import Mathlib.Order.Lattice.Nat
import Mathlib.Order.OrderDual

namespace Quiche.Running

/-! The windowed filter of `minmax.rs` for values of any linear order. `quarter` and `half` stand for the
division of a window by a floating point number, `div_f32`. -/

structure MinmaxSample (T : Type) where
  time : Int
  value : T
deriving DecidableEq

/-- The three elements of `estimate` have names of their own. -/
structure Minmax (T : Type) where
  best : MinmaxSample T
  second : MinmaxSample T
  third : MinmaxSample T

/-- The arguments of a call of `running_min` or `running_max` -/
structure Measurement (T : Type) where
  win : Nat
  time : Int
  value : T

def Measurement.sample {T : Type} (measurement : Measurement T) : MinmaxSample T :=
  ⟨measurement.time, measurement.value⟩

namespace Minmax

variable {T : Type} [LinearOrder T] (quarter half : Nat → Nat)

/-- `now` is the time of the call. -/
def new (val : T) (now : Int) : Minmax T := ⟨⟨now, val⟩, ⟨now, val⟩, ⟨now, val⟩⟩

def reset (time : Int) (meas : T) : Minmax T × T := (⟨⟨time, meas⟩, ⟨time, meas⟩, ⟨time, meas⟩⟩, meas)

def subwinUpdate (minmax : Minmax T) (win : Nat) (time : Int) (meas : T) : Minmax T × T :=
  let val := ⟨time, meas⟩
  let deltaTime := (time - minmax.best.time).toNat
  let minmax :=
    if deltaTime > win then
      let minmax := ⟨minmax.second, minmax.third, val⟩
      if (time - minmax.best.time).toNat > win then ⟨minmax.second, minmax.third, val⟩ else minmax
    else if minmax.second.time = minmax.best.time ∧ deltaTime > quarter win then ⟨minmax.best, val, val⟩
    else if minmax.third.time = minmax.second.time ∧ deltaTime > half win then ⟨minmax.best, minmax.second, val⟩
    else minmax
  (minmax, minmax.best.value)

def runningMin (minmax : Minmax T) (win : Nat) (time : Int) (meas : T) : Minmax T × T :=
  let val := ⟨time, meas⟩
  let deltaTime := (time - minmax.third.time).toNat
  if meas ≤ minmax.best.value ∨ deltaTime > win then reset time meas
  else
    let minmax :=
      if meas ≤ minmax.second.value then { minmax with second := val, third := val }
      else if meas ≤ minmax.third.value then { minmax with third := val }
      else minmax
    minmax.subwinUpdate quarter half win time meas

def runningMax (minmax : Minmax T) (win : Nat) (time : Int) (meas : T) : Minmax T × T :=
  let val := ⟨time, meas⟩
  let deltaTime := (time - minmax.third.time).toNat
  if meas ≥ minmax.best.value ∨ deltaTime > win then reset time meas
  else
    let minmax :=
      if meas ≥ minmax.second.value then { minmax with second := val, third := val }
      else if meas ≥ minmax.third.value then { minmax with third := val }
      else minmax
    minmax.subwinUpdate quarter half win time meas

/-- The filter after the calls of `running_min`, the first of them first. -/
def minimum (minmax : Minmax T) (calls : List (Measurement T)) : Minmax T :=
  calls.foldl (fun minmax call => (minmax.runningMin quarter half call.win call.time call.value).1) minmax

/-- The filter after the calls of `running_max`, the first of them first. -/
def maximum (minmax : Minmax T) (calls : List (Measurement T)) : Minmax T :=
  calls.foldl (fun minmax call => (minmax.runningMax quarter half call.win call.time call.value).1) minmax

end Minmax

/-- `sample` is one of the measurements, and those of later calls are not `better`. -/
def Standing {T : Type} (atMost : T → T → Prop) (measured : List (MinmaxSample T)) (sample : MinmaxSample T) : Prop :=
  ∃ earlier later, measured = earlier ++ sample :: later ∧ ∀ other ∈ later, atMost sample.value other.value

/-- The estimates are in the order of their times and of their values, and stand. -/
structure Sound {T : Type} (atMost : T → T → Prop) (measured : List (MinmaxSample T)) (minmax : Minmax T) : Prop where
  times : minmax.best.time ≤ minmax.second.time ∧ minmax.second.time ≤ minmax.third.time
  values : atMost minmax.best.value minmax.second.value ∧ atMost minmax.second.value minmax.third.value
  best : Standing atMost measured minmax.best
  second : Standing atMost measured minmax.second
  third : Standing atMost measured minmax.third

/-- What a call returns is a measurement that is not older than the window of the call, and at most the
newest one. -/
structure Within {T : Type} (atMost : T → T → Prop) (measured : List (MinmaxSample T)) (call : Measurement T)
    (result : T) : Prop where
  recent : ∃ sample ∈ measured, sample.value = result ∧ (call.time - sample.time).toNat ≤ call.win
  newest : atMost result call.value

section Positions

variable {T : Type} [LinearOrder T] {recent : List (MinmaxSample T)} {sample newest : MinmaxSample T}
  {minmax : Minmax T} {index other : Nat}

/-- The sample is at the index, and none after it is smaller. -/
structure Least (recent : List (MinmaxSample T)) (index : Nat) (sample : MinmaxSample T) : Prop where
  measured : recent[index]? = some sample
  later : ∀ other ∈ recent.take index, sample.value ≤ other.value

/-- The three samples are minima of ever shorter ends of the window. -/
def Tracks (recent : List (MinmaxSample T)) (minmax : Minmax T) : Prop :=
  ∃ best second third : Nat, third ≤ second ∧ second ≤ best ∧
    Least recent best minmax.best ∧ Least recent second minmax.second ∧ Least recent third minmax.third

theorem Least.head (newest : MinmaxSample T) (recent : List (MinmaxSample T)) : Least (newest :: recent) 0 newest := by
  constructor
  · simp
  · simp

section

variable (least : Least recent index sample)

include least

theorem Least.push (above : sample.value ≤ newest.value) : Least (newest :: recent) (index + 1) sample := by
  constructor
  · simpa using least.measured
  · intro other member
    rw [List.take_succ_cons] at member
    rcases List.mem_cons.mp member with rfl | member
    · exact above
    · exact least.later other member

theorem Least.mem : sample ∈ recent := List.mem_of_getElem? least.measured

theorem Least.standing : Standing (· ≤ ·) recent.reverse sample := by
  obtain ⟨bound, found⟩ := List.getElem?_eq_some_iff.mp least.measured
  have split : recent = recent.take index ++ sample :: recent.drop (index + 1) := by
    rw [← found, ← List.drop_eq_getElem_cons bound, List.take_append_drop]
  refine ⟨(recent.drop (index + 1)).reverse, (recent.take index).reverse, ?_, ?_⟩
  · conv_lhs => rw [split]
    simp
  · intro other member
    exact least.later other (List.mem_reverse.mp member)

end

theorem Least.value_le {later : MinmaxSample T} (least : Least recent index sample)
    (laterLeast : Least recent other later) (le : other ≤ index) : sample.value ≤ later.value := by
  rcases Nat.eq_or_lt_of_le le with rfl | lt
  · cases least.measured.symm.trans laterLeast.measured
    exact le_rfl
  · refine least.later later (List.mem_of_getElem? (i := other) ?_)
    rw [List.getElem?_take_of_lt lt]
    exact laterLeast.measured

theorem Least.time_le {later : MinmaxSample T} (least : Least recent index sample) (laterLeast : Least recent other later)
    (ordered : recent.Pairwise fun after before => before.time ≤ after.time) (le : other ≤ index) :
    sample.time ≤ later.time := by
  rcases Nat.eq_or_lt_of_le le with rfl | lt
  · cases least.measured.symm.trans laterLeast.measured
    exact le_rfl
  · obtain ⟨bound, rfl⟩ := List.getElem?_eq_some_iff.mp least.measured
    obtain ⟨otherBound, rfl⟩ := List.getElem?_eq_some_iff.mp laterLeast.measured
    exact List.pairwise_iff_getElem.mp ordered other index otherBound bound lt

theorem Tracks.sound (tracks : Tracks recent minmax)
    (ordered : recent.Pairwise fun after before => before.time ≤ after.time) : Sound (· ≤ ·) recent.reverse minmax := by
  obtain ⟨first, middle, last, second_le, best_le, best, second, third⟩ := tracks
  constructor
  · exact ⟨best.time_le second ordered best_le, second.time_le third ordered second_le⟩
  · exact ⟨best.value_le second best_le, second.value_le third second_le⟩
  · exact best.standing
  · exact second.standing
  · exact third.standing

theorem tracks_reset (newest : MinmaxSample T) (recent : List (MinmaxSample T)) :
    Tracks (newest :: recent) ⟨newest, newest, newest⟩ :=
  ⟨0, 0, 0, Nat.le_refl _, Nat.le_refl _, .head newest recent, .head newest recent, .head newest recent⟩

end Positions

namespace Minmax

variable {T : Type} [LinearOrder T] {quarter half : Nat → Nat} {recent : List (MinmaxSample T)} {minmax : Minmax T}
  {win : Nat} {time : Int} {meas : T}

theorem improved_tracks (time : Int) (tracks : Tracks recent minmax) (above : minmax.best.value ≤ meas) :
    Tracks (⟨time, meas⟩ :: recent)
      (if meas ≤ minmax.second.value then { minmax with second := ⟨time, meas⟩, third := ⟨time, meas⟩ }
      else if meas ≤ minmax.third.value then { minmax with third := ⟨time, meas⟩ }
      else minmax) := by
  obtain ⟨first, middle, last, second_le, best_le, best, second, third⟩ := tracks
  split
  · exact ⟨first + 1, 0, 0, Nat.le_refl _, Nat.zero_le _, best.push above, .head _ _, .head _ _⟩
  rename_i aboveSecond
  split
  · exact ⟨first + 1, middle + 1, 0, Nat.zero_le _, Nat.succ_le_succ best_le, best.push above,
      second.push (le_of_lt (not_le.mp aboveSecond)), .head _ _⟩
  · rename_i aboveThird
    exact ⟨first + 1, middle + 1, last + 1, Nat.succ_le_succ second_le, Nat.succ_le_succ best_le, best.push above,
      second.push (le_of_lt (not_le.mp aboveSecond)), third.push (le_of_lt (not_le.mp aboveThird))⟩

theorem subwinUpdate_tracks (quarter half : Nat → Nat) (tracks : Tracks (⟨time, meas⟩ :: recent) minmax)
    (within : (time - minmax.third.time).toNat ≤ win) :
    Tracks (⟨time, meas⟩ :: recent) (minmax.subwinUpdate quarter half win time meas).1 ∧
      (time - (minmax.subwinUpdate quarter half win time meas).1.best.time).toNat ≤ win := by
  obtain ⟨first, middle, last, second_le, best_le, best, second, third⟩ := tracks
  have newest := Least.head ⟨time, meas⟩ recent
  simp only [subwinUpdate]
  split
  · split
    · exact ⟨⟨last, 0, 0, Nat.le_refl _, Nat.zero_le _, third, newest, newest⟩, within⟩
    · rename_i young
      exact ⟨⟨middle, last, 0, Nat.zero_le _, second_le, second, third, newest⟩, Nat.not_lt.mp young⟩
  rename_i young
  split
  · exact ⟨⟨first, 0, 0, Nat.le_refl _, Nat.zero_le _, best, newest, newest⟩, Nat.not_lt.mp young⟩
  split
  · exact ⟨⟨first, middle, 0, Nat.zero_le _, best_le, best, second, newest⟩, Nat.not_lt.mp young⟩
  · exact ⟨⟨first, middle, last, second_le, best_le, best, second, third⟩, Nat.not_lt.mp young⟩

theorem runningMin_tracks (quarter half : Nat → Nat) (tracks : Tracks recent minmax) (win : Nat) (time : Int) (meas : T) :
    Tracks (⟨time, meas⟩ :: recent) (minmax.runningMin quarter half win time meas).1 ∧
      (time - (minmax.runningMin quarter half win time meas).1.best.time).toNat ≤ win ∧
      (minmax.runningMin quarter half win time meas).2 =
        (minmax.runningMin quarter half win time meas).1.best.value := by
  rw [runningMin]
  split
  · exact ⟨tracks_reset _ _, by simp [reset], rfl⟩
  · rename_i kept
    obtain ⟨above, within⟩ := not_or.mp kept
    have improved := improved_tracks time tracks (le_of_lt (not_le.mp above))
    have newWithin : (time - (if meas ≤ minmax.second.value then
        { minmax with second := ⟨time, meas⟩, third := ⟨time, meas⟩ }
        else if meas ≤ minmax.third.value then { minmax with third := ⟨time, meas⟩ }
        else minmax).third.time).toNat ≤ win := by
      split
      · simp
      split
      · simp
      · exact Nat.not_lt.mp within
    obtain ⟨tracks, age⟩ := subwinUpdate_tracks quarter half improved newWithin
    exact ⟨tracks, age, rfl⟩

theorem minimum_tracks (quarter half : Nat → Nat) (tracks : Tracks recent minmax) (calls : List (Measurement T)) :
    Tracks ((calls.map Measurement.sample).reverse ++ recent) (minmax.minimum quarter half calls) := by
  induction calls generalizing minmax recent with
  | nil => exact tracks
  | cons call calls ih =>
    rw [List.map_cons, List.reverse_cons, List.append_assoc]
    exact ih (runningMin_tracks quarter half tracks call.win call.time call.value).1

theorem minimum_sound (quarter half : Nat → Nat) (start : MinmaxSample T) (calls : List (Measurement T))
    (call : Measurement T)
    (ordered : (start :: (calls ++ [call]).map Measurement.sample).Pairwise fun before after => before.time ≤
      after.time) :
    Sound (· ≤ ·) (start :: calls.map Measurement.sample)
        ((reset start.time start.value).1.minimum quarter half calls) ∧
      Within (· ≤ ·) (start :: (calls ++ [call]).map Measurement.sample) call
        (((reset start.time start.value).1.minimum quarter half calls).runningMin quarter half
          call.win call.time call.value).2 := by
  have tracks := minimum_tracks quarter half (tracks_reset start []) calls
  obtain ⟨next, age, result⟩ := runningMin_tracks quarter half tracks call.win call.time call.value
  constructor
  · have flipped : ((calls.map Measurement.sample).reverse ++ [start]).Pairwise
        fun after before => before.time ≤ after.time := by
      rw [← List.reverse_cons, List.pairwise_reverse]
      refine ordered.sublist ?_
      rw [List.map_append]
      exact List.Sublist.cons_cons start (List.sublist_append_left _ _)
    have sound := tracks.sound flipped
    rw [← List.reverse_cons, List.reverse_reverse] at sound
    exact sound
  · obtain ⟨first, middle, last, second_le, best_le, best, second, third⟩ := next
    constructor
    · refine ⟨_, ?_, result.symm, age⟩
      have member := best.mem
      rw [← List.reverse_cons, List.mem_cons, List.mem_reverse] at member
      rw [List.map_append, ← List.cons_append, List.mem_append]
      rcases member with newest | old
      · exact .inr (List.mem_singleton.mpr newest)
      · exact .inl old
    · exact le_of_eq_of_le result (best.value_le (Least.head _ _) (Nat.zero_le _))

theorem runningMax_eq_dual (quarter half : Nat → Nat) (minmax : Minmax T) (win : Nat) (time : Int) (meas : T) :
    minmax.runningMax quarter half win time meas = runningMin (T := OrderDual T) quarter half minmax win time meas :=
  rfl

theorem maximum_eq_dual (quarter half : Nat → Nat) (minmax : Minmax T) (calls : List (Measurement T)) :
    minmax.maximum quarter half calls = minimum (T := OrderDual T) quarter half minmax calls := rfl

/-- After a reset and any calls at times that do not decrease, the estimates are sound, and the next call returns
a measurement within its window: for minima and for maxima. -/
theorem windowed_filters_sound (quarter half : Nat → Nat) (start : MinmaxSample T) (calls : List (Measurement T))
    (call : Measurement T)
    (ordered : (start :: (calls ++ [call]).map Measurement.sample).Pairwise fun before after => before.time ≤
      after.time) :
    (Sound (· ≤ ·) (start :: calls.map Measurement.sample)
        ((reset start.time start.value).1.minimum quarter half calls) ∧
      Within (· ≤ ·) (start :: (calls ++ [call]).map Measurement.sample) call
        (((reset start.time start.value).1.minimum quarter half calls).runningMin quarter half
          call.win call.time call.value).2) ∧ Sound (· ≥ ·) (start :: calls.map Measurement.sample)
        ((reset start.time start.value).1.maximum quarter half calls) ∧
      Within (· ≥ ·) (start :: (calls ++ [call]).map Measurement.sample) call
        (((reset start.time start.value).1.maximum quarter half calls).runningMax quarter half
          call.win call.time call.value).2 := by
  refine ⟨minimum_sound quarter half start calls call ordered, ?_⟩
  have last := maximum_eq_dual quarter half (reset start.time start.value).1 calls
  have returned := runningMax_eq_dual quarter half
    ((reset start.time start.value).1.maximum quarter half calls) call.win call.time call.value
  obtain ⟨sound, within⟩ := minimum_sound (T := OrderDual T) quarter half start calls call ordered
  rw [returned, last]
  exact ⟨⟨sound.times, sound.values, sound.best, sound.second, sound.third⟩, ⟨within.recent, within.newest⟩⟩

theorem windowed_filters_sound_five :
    (Sound (· ≤ ·) [⟨0, 1⟩, ⟨10, 5⟩] (((reset 0 1).1 : Minmax Nat).minimum (· / 4) (· / 2) [⟨16, 10, 5⟩]) ∧
      Within (· ≤ ·) [⟨0, 1⟩, ⟨10, 5⟩, ⟨20, 4⟩] ⟨16, 20, 4⟩
        ((((reset 0 1).1 : Minmax Nat).minimum (· / 4) (· / 2) [⟨16, 10, 5⟩]).runningMin (· / 4) (· / 2) 16 20 4).2) ∧
      Sound (· ≥ ·) [⟨0, 1⟩, ⟨10, 5⟩] (((reset 0 1).1 : Minmax Nat).maximum (· / 4) (· / 2) [⟨16, 10, 5⟩]) ∧
      Within (· ≥ ·) [⟨0, 1⟩, ⟨10, 5⟩, ⟨20, 4⟩] ⟨16, 20, 4⟩
        ((((reset 0 1).1 : Minmax Nat).maximum (· / 4) (· / 2) [⟨16, 10, 5⟩]).runningMax (· / 4) (· / 2) 16 20 4).2 :=
  windowed_filters_sound (· / 4) (· / 2) ⟨0, 1⟩ [⟨16, 10, 5⟩] ⟨16, 20, 4⟩ (by decide)

/-- Of two measurements at one time the estimate taken at that time can be the greater one. -/
theorem estimate_above_measurement : ¬ ∀ (start : MinmaxSample Nat) (calls : List (Measurement Nat)),
      ((start :: calls.map Measurement.sample).Pairwise fun before after => before.time ≤ after.time) →
        ∀ other ∈ start :: calls.map Measurement.sample,
          (((reset start.time start.value).1.minimum (· / 4) (· / 2) calls).third.time ≤ other.time →
            ((reset start.time start.value).1.minimum (· / 4) (· / 2) calls).third.value ≤ other.value) := by
  intro claimed
  have above := claimed ⟨0, 1⟩ [⟨16, 10, 5⟩, ⟨16, 10, 7⟩] (by decide) ⟨10, 5⟩ (by decide) (by decide)
  exact absurd above (by decide)

end Minmax

end Quiche.Running
