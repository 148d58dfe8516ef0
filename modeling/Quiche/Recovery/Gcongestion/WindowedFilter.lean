import Mathlib.Order.Lattice
import Mathlib.Tactic.Common

namespace Quiche.Gcongestion

structure Sample (Value : Type) where
  sample : Value
  time : Nat
deriving DecidableEq

structure Estimates (Value : Type) where
  best : Sample Value
  second : Sample Value
  third : Sample Value
deriving DecidableEq

/-- Times are numbers of rounds. -/
structure WindowedFilter (Value : Type) where
  windowLength : Nat
  estimates : Option (Estimates Value)
deriving DecidableEq

/-- `-` on `usize`; `none` is the underflow panic. -/
def subUsize (left right : Nat) : Option Nat := if right ≤ left then some (left - right) else none

theorem subUsize_of_le {left right : Nat} (le : right ≤ left) : subUsize left right = some (left - right) := if_pos le

namespace WindowedFilter

variable {Value : Type} [LinearOrder Value]

def new (windowLength : Nat) : WindowedFilter Value := ⟨windowLength, none⟩

def reset (filter : WindowedFilter Value) (newSample : Value) (newTime : Nat) : WindowedFilter Value :=
  { filter with estimates := some ⟨⟨newSample, newTime⟩, ⟨newSample, newTime⟩, ⟨newSample, newTime⟩⟩ }

def getBest (filter : WindowedFilter Value) : Option Value := filter.estimates.map (·.best.sample)

def getSecondBest (filter : WindowedFilter Value) : Option Value := filter.estimates.map (·.second.sample)

def getThirdBest (filter : WindowedFilter Value) : Option Value := filter.estimates.map (·.third.sample)

def clear (filter : WindowedFilter Value) : WindowedFilter Value := { filter with estimates := none }

def improve (estimates : Estimates Value) (sample : Sample Value) : Estimates Value :=
  if estimates.second.sample < sample.sample then { estimates with second := sample, third := sample }
  else if estimates.third.sample < sample.sample then { estimates with third := sample }
  else estimates

def promote (windowLength : Nat) (estimates : Estimates Value) (sample : Sample Value) : Option (Estimates Value) := do
  let promoted : Estimates Value := ⟨estimates.second, estimates.third, sample⟩
  if (← subUsize sample.time promoted.best.time) > windowLength then
    return ⟨promoted.second, promoted.third, promoted.third⟩
  else return promoted

/-- Whether an estimate that equals the next better one is older than `limit`. -/
def stale (better estimate : Sample Value) (now limit : Nat) : Option Bool :=
  if estimate.sample = better.sample then (subUsize now estimate.time).map fun age => decide (age > limit)
  else some false

def renew (windowLength : Nat) (estimates : Estimates Value) (sample : Sample Value) : Option (Estimates Value) := do
  if ← stale estimates.best estimates.second sample.time (windowLength / 4) then
    return ⟨estimates.best, sample, sample⟩
  else if ← stale estimates.second estimates.third sample.time (windowLength / 2) then
    return ⟨estimates.best, estimates.second, sample⟩
  else return estimates

def update (filter : WindowedFilter Value) (newSample : Value) (newTime : Nat) : Option (WindowedFilter Value) :=
  match filter.estimates with
  | none => some (filter.reset newSample newTime)
  | some estimates =>
    if estimates.best.sample < newSample then some (filter.reset newSample newTime)
    else do
      if (← subUsize newTime estimates.third.time) > filter.windowLength then return filter.reset newSample newTime
      else
        let sample : Sample Value := ⟨newSample, newTime⟩
        let estimates := improve estimates sample
        let estimates ← if (← subUsize newTime estimates.best.time) > filter.windowLength then
            promote filter.windowLength estimates sample
          else renew filter.windowLength estimates sample
        return { filter with estimates := some estimates }

end WindowedFilter

namespace Estimates

variable {Value : Type} {estimates next : Estimates Value} {sample : Sample Value} {now windowLength : Nat}

/-- The estimates are some of the old ones and the new sample. -/
def From (next estimates : Estimates Value) (sample : Sample Value) : Prop :=
  ∀ entry ∈ [next.best, next.second, next.third],
    entry ∈ [estimates.best, estimates.second, estimates.third] ∨ entry = sample

theorem From.trans {first second third : Estimates Value} (later : third.From second sample)
    (earlier : second.From first sample) : third.From first sample := by
  intro entry member
  rcases later entry member with old | rfl
  · exact earlier entry old
  · exact .inr rfl

theorem from_of_each {best second third : Sample Value}
    (first : best ∈ [estimates.best, estimates.second, estimates.third] ∨ best = sample)
    (middle : second ∈ [estimates.best, estimates.second, estimates.third] ∨ second = sample)
    (last : third ∈ [estimates.best, estimates.second, estimates.third] ∨ third = sample) :
    From ⟨best, second, third⟩ estimates sample := by
  intro entry member
  simp only [List.mem_cons, List.not_mem_nil, or_false] at member
  rcases member with rfl | rfl | rfl
  · exact first
  · exact middle
  · exact last

variable [LinearOrder Value]

/-- The three estimates descend, and are ever more recent. -/
structure Ordered (estimates : Estimates Value) (now : Nat) : Prop where
  second : estimates.second.sample ≤ estimates.best.sample
  third : estimates.third.sample ≤ estimates.second.sample
  bestTime : estimates.best.time ≤ estimates.second.time
  secondTime : estimates.second.time ≤ estimates.third.time
  thirdTime : estimates.third.time ≤ now

theorem improve_spec (ordered : estimates.Ordered now) (le : now ≤ sample.time)
    (worse : sample.sample ≤ estimates.best.sample) : (WindowedFilter.improve estimates sample).Ordered sample.time ∧
      (WindowedFilter.improve estimates sample).From estimates sample ∧
      sample.sample ≤ (WindowedFilter.improve estimates sample).third.sample ∧
      estimates.third.time ≤ (WindowedFilter.improve estimates sample).third.time := by
  obtain ⟨second, third, bestTime, secondTime, thirdTime⟩ := ordered
  rw [WindowedFilter.improve]
  split
  · refine ⟨⟨worse, le_rfl, ?_, Nat.le_refl _, Nat.le_refl _⟩, ?_, le_rfl, ?_⟩
    · exact Nat.le_trans (Nat.le_trans bestTime secondTime) (Nat.le_trans thirdTime le)
    · exact from_of_each (.inl (by simp)) (.inr rfl) (.inr rfl)
    · exact Nat.le_trans thirdTime le
  · rename_i within
    split
    · refine ⟨⟨second, not_lt.mp within, bestTime, ?_, Nat.le_refl _⟩, ?_, le_rfl, ?_⟩
      · exact Nat.le_trans secondTime (Nat.le_trans thirdTime le)
      · exact from_of_each (.inl (by simp)) (.inl (by simp)) (.inr rfl)
      · exact Nat.le_trans thirdTime le
    · rename_i below
      exact ⟨⟨second, third, bestTime, secondTime, Nat.le_trans thirdTime le⟩,
        from_of_each (.inl (by simp)) (.inl (by simp)) (.inl (by simp)), not_lt.mp below, Nat.le_refl _⟩

theorem promote_spec (ordered : estimates.Ordered sample.time) (least : sample.sample ≤ estimates.third.sample)
    (recent : sample.time - estimates.third.time ≤ windowLength) :
    ∃ next, WindowedFilter.promote windowLength estimates sample = some next ∧ next.Ordered sample.time ∧
      next.From estimates sample ∧ sample.time - next.best.time ≤ windowLength := by
  obtain ⟨_, third, _, secondTime, thirdTime⟩ := ordered
  rw [WindowedFilter.promote]
  simp only [subUsize_of_le (Nat.le_trans secondTime thirdTime), Option.bind_eq_bind, Option.bind_some]
  split
  · exact ⟨_, rfl, ⟨least, le_rfl, thirdTime, Nat.le_refl _, Nat.le_refl _⟩,
      from_of_each (.inl (by simp)) (.inr rfl) (.inr rfl), recent⟩
  · rename_i young
    exact ⟨_, rfl, ⟨third, least, secondTime, thirdTime, Nat.le_refl _⟩,
      from_of_each (.inl (by simp)) (.inl (by simp)) (.inr rfl), Nat.not_lt.mp young⟩

theorem stale_exists (better estimate : Sample Value) (limit : Nat) (le : estimate.time ≤ now) :
    ∃ aged, WindowedFilter.stale better estimate now limit = some aged := by
  rw [WindowedFilter.stale, subUsize_of_le le]
  split <;> exact ⟨_, rfl⟩

theorem renew_spec (windowLength : Nat) (ordered : estimates.Ordered sample.time)
    (least : sample.sample ≤ estimates.third.sample) :
    ∃ next, WindowedFilter.renew windowLength estimates sample = some next ∧ next.Ordered sample.time ∧
      next.From estimates sample ∧ next.best = estimates.best := by
  obtain ⟨second, third, bestTime, secondTime, thirdTime⟩ := ordered
  have secondLe := Nat.le_trans secondTime thirdTime
  obtain ⟨quarter, is⟩ := stale_exists estimates.best estimates.second (windowLength / 4) secondLe
  obtain ⟨half, is'⟩ := stale_exists estimates.second estimates.third (windowLength / 2) thirdTime
  rw [WindowedFilter.renew, is]
  simp only [is', Option.bind_eq_bind, Option.bind_some]
  have below := le_trans least third
  split
  · exact ⟨_, rfl, ⟨le_trans below second, le_rfl, Nat.le_trans bestTime secondLe, Nat.le_refl _, Nat.le_refl _⟩,
      from_of_each (.inl (by simp)) (.inr rfl) (.inr rfl), rfl⟩
  · split
    · exact ⟨_, rfl, ⟨second, below, bestTime, secondLe, Nat.le_refl _⟩,
        from_of_each (.inl (by simp)) (.inl (by simp)) (.inr rfl), rfl⟩
    · exact ⟨_, rfl, ⟨second, third, bestTime, secondTime, thirdTime⟩,
        from_of_each (.inl (by simp)) (.inl (by simp)) (.inl (by simp)), rfl⟩

end Estimates

namespace WindowedFilter

variable {Value : Type} {filter : WindowedFilter Value} {now newTime : Nat} {newSample : Value}

def held (filter : WindowedFilter Value) : List (Sample Value) :=
  match filter.estimates with
  | none => []
  | some estimates => [estimates.best, estimates.second, estimates.third]

variable [LinearOrder Value]

/-- The estimates of the filter, if there are any, are in order. -/
def Ordered (filter : WindowedFilter Value) (now : Nat) : Prop := ∀ estimates ∈ filter.estimates, estimates.Ordered now

theorem Ordered.later {later : Nat} (ordered : filter.Ordered now) (le : now ≤ later) : filter.Ordered later := by
  intro estimates is
  have sorted := ordered estimates is
  exact { sorted with thirdTime := Nat.le_trans sorted.thirdTime le }

/-- The best estimate lies within the window. -/
def Recent (filter : WindowedFilter Value) (now : Nat) : Prop :=
  ∃ estimates, filter.estimates = some estimates ∧ now - estimates.best.time ≤ filter.windowLength

theorem reset_spec (filter : WindowedFilter Value) (newSample : Value) (newTime : Nat) :
    (filter.reset newSample newTime).Ordered newTime ∧ (filter.reset newSample newTime).Recent newTime ∧
      ∀ entry ∈ (filter.reset newSample newTime).held, entry = ⟨newSample, newTime⟩ := by
  refine ⟨?_, ⟨_, rfl, by simp⟩, ?_⟩
  · intro estimates is
    cases is
    exact ⟨le_rfl, le_rfl, Nat.le_refl _, Nat.le_refl _, Nat.le_refl _⟩
  · intro entry member
    simpa [held, reset] using member

theorem update_spec (ordered : filter.Ordered now) (le : now ≤ newTime) (newSample : Value) :
    ∃ next, filter.update newSample newTime = some next ∧ next.windowLength = filter.windowLength ∧
      next.Ordered newTime ∧ next.Recent newTime ∧
      ∀ entry ∈ next.held, entry ∈ filter.held ∨ entry = ⟨newSample, newTime⟩ := by
  obtain ⟨resetOrdered, resetRecent, resetHeld⟩ := filter.reset_spec newSample newTime
  have fresh : ∀ entry ∈ (filter.reset newSample newTime).held, entry ∈ filter.held ∨ entry = ⟨newSample, newTime⟩ :=
    fun entry member => .inr (resetHeld entry member)
  rw [update]
  cases is : filter.estimates with
  | none => exact ⟨_, rfl, rfl, resetOrdered, resetRecent, fresh⟩
  | some estimates =>
    have sorted := ordered estimates is
    dsimp only
    split
    · exact ⟨_, rfl, rfl, resetOrdered, resetRecent, fresh⟩
    · rename_i worse
      rw [subUsize_of_le (Nat.le_trans sorted.thirdTime le)]
      simp only [Option.bind_eq_bind, Option.bind_some]
      split
      · exact ⟨_, rfl, rfl, resetOrdered, resetRecent, fresh⟩
      · rename_i young
        obtain ⟨improved, from_, least, later⟩ :=
          Estimates.improve_spec sorted (show now ≤ (Sample.mk newSample newTime).time from le) (not_lt.mp worse)
        have recent := Nat.not_lt.mp young
        have stored : ∀ next : Estimates Value, next.From estimates ⟨newSample, newTime⟩ →
            ∀ entry ∈ ({ filter with estimates := some next } : WindowedFilter Value).held,
              entry ∈ filter.held ∨ entry = ⟨newSample, newTime⟩ := by
          intro next among entry member
          rw [held, is]
          exact among entry member
        rw [subUsize_of_le (Nat.le_trans improved.bestTime (Nat.le_trans improved.secondTime improved.thirdTime))]
        simp only [Option.bind_some]
        split
        · obtain ⟨next, promoted, nextOrdered, nextFrom, nextRecent⟩ :=
            Estimates.promote_spec improved least (show newTime - _ ≤ filter.windowLength by omega)
          rw [promoted]
          refine ⟨_, rfl, rfl, ?_, ⟨next, rfl, nextRecent⟩, stored next (nextFrom.trans from_)⟩
          intro estimates same
          cases same
          exact nextOrdered
        · rename_i current
          obtain ⟨next, renewed, nextOrdered, nextFrom, best⟩ := Estimates.renew_spec filter.windowLength improved least
          rw [renewed]
          refine ⟨_, rfl, rfl, ?_, ⟨next, rfl, ?_⟩, stored next (nextFrom.trans from_)⟩
          · intro estimates same
            cases same
            exact nextOrdered
          · rw [best]
            exact Nat.not_lt.mp current

end WindowedFilter

end Quiche.Gcongestion
