import Mathlib.Init

namespace Quiche.Data

/-! Runs of a deterministic machine whose steps may fail to return.

A step that yields `none` stands for a call that panics or never comes back, so
`run` returning `some` already says that every call of the sequence returned. -/

structure Machine (State Op : Type) where
  step : State → Op → Option State

namespace Machine

variable {State Op : Type} (machine : Machine State Op)

def run : State → List Op → Option State
  | state, [] => some state
  | state, op :: ops => (machine.step state op).bind fun next => run next ops

/-- Each operation of the run meets the guard in the state it is applied to. -/
def Guarded (guard : State → Op → Prop) : State → List Op → Prop
  | _, [] => True
  | state, op :: ops => guard state op ∧
      ∀ next, machine.step state op = some next → Guarded guard next ops

instance decidableGuarded (guard : State → Op → Prop) [∀ state op, Decidable (guard state op)] :
    ∀ state ops, Decidable (machine.Guarded guard state ops)
  | _, [] => .isTrue trivial
  | state, op :: ops =>
    match stepped : machine.step state op with
    | none => decidable_of_iff (guard state op) (by simp [Guarded, stepped])
    | some next =>
      have := decidableGuarded guard next ops
      decidable_of_iff (guard state op ∧ machine.Guarded guard next ops) (by simp [Guarded, stepped])

variable {machine}

theorem run_append (state : State) (earlier later : List Op) :
    machine.run state (earlier ++ later) = (machine.run state earlier).bind fun middle => machine.run middle later := by
  induction earlier generalizing state with
  | nil => rfl
  | cons op ops ih =>
    simp only [List.cons_append, run]
    cases machine.step state op with
    | none => rfl
    | some next => exact ih next

theorem guarded_true (state : State) (ops : List Op) : machine.Guarded (fun _ _ => True) state ops := by
  induction ops generalizing state with
  | nil => trivial
  | cons op ops ih => exact ⟨trivial, fun next _ => ih next⟩

variable {guard : State → Op → Prop} {state final : State} {ops : List Op} {invariant : State → Prop}

theorem Guarded.and_forall {holds : Op → Prop}
    (guarded : machine.Guarded guard state ops) (every : ∀ op ∈ ops, holds op) :
    machine.Guarded (fun state op => guard state op ∧ holds op) state ops := by
  induction ops generalizing state with
  | nil => trivial
  | cons op ops ih =>
    obtain ⟨admitted, rest⟩ := guarded
    obtain ⟨first, others⟩ := List.forall_mem_cons.mp every
    exact ⟨⟨admitted, first⟩, fun next stepped => ih (rest next stepped) others⟩

theorem Guarded.and {other : State → Op → Prop}
    (first : machine.Guarded guard state ops) (second : machine.Guarded other state ops) :
    machine.Guarded (fun state op => guard state op ∧ other state op) state ops := by
  induction ops generalizing state with
  | nil => trivial
  | cons op ops ih => exact ⟨⟨first.1, second.1⟩, fun next stepped => ih (first.2 next stepped) (second.2 next stepped)⟩

theorem guarded_append {earlier later : List Op} (guarded : machine.Guarded guard state (earlier ++ later)) :
    machine.Guarded guard state earlier ∧
      ∀ middle, machine.run state earlier = some middle → machine.Guarded guard middle later := by
  induction earlier generalizing state with
  | nil =>
    refine ⟨trivial, fun middle reached => ?_⟩
    cases reached
    exact guarded
  | cons op ops ih =>
    obtain ⟨admitted, rest⟩ := guarded
    refine ⟨⟨admitted, fun next stepped => (ih (rest next stepped)).1⟩, fun middle reached => ?_⟩
    obtain ⟨next, stepped, completed⟩ := Option.bind_eq_some_iff.mp reached
    exact (ih (rest next stepped)).2 middle completed

theorem run_keeps_of_guarded (machine : Machine State Op)
    (preserved : ∀ state op next, invariant state → guard state op → machine.step state op = some next → invariant next)
    (initial : invariant state)
    (guarded : machine.Guarded guard state ops) (completed : machine.run state ops = some final) :
    invariant final := by
  induction ops generalizing state with
  | nil =>
    cases completed
    exact initial
  | cons op ops ih =>
    obtain ⟨admitted, rest⟩ := guarded
    obtain ⟨next, stepped, finished⟩ := Option.bind_eq_some_iff.mp completed
    exact ih (preserved state op next initial admitted stepped) (rest next stepped) finished

theorem guarded_of_guarded (machine : Machine State Op) {goal : State → Op → Prop}
    (each : ∀ state op, invariant state → guard state op → goal state op)
    (preserved : ∀ state op next, invariant state → guard state op → machine.step state op = some next → invariant next)
    (initial : invariant state) (guarded : machine.Guarded guard state ops) :
    machine.Guarded goal state ops := by
  induction ops generalizing state with
  | nil => trivial
  | cons op ops ih =>
    obtain ⟨admitted, rest⟩ := guarded
    exact ⟨each state op initial admitted,
      fun next stepped => ih (preserved state op next initial admitted stepped) (rest next stepped)⟩

theorem run_keeps (machine : Machine State Op)
    (preserved : ∀ state op next, invariant state → machine.step state op = some next → invariant next)
    (initial : invariant state) (completed : machine.run state ops = some final) : invariant final :=
  machine.run_keeps_of_guarded (fun state op next holds _ => preserved state op next holds) initial
    (guarded_true state ops) completed

theorem run_iff_guarded (machine : Machine State Op) {property : State → Prop}
    (preserved : ∀ state op next, invariant state → machine.step state op = some next → invariant next)
    (exact_ : ∀ state op next, invariant state → machine.step state op = some next →
      (property next ↔ property state ∧ guard state op))
    (initial : invariant state) (completed : machine.run state ops = some final) :
    property final ↔ property state ∧ machine.Guarded guard state ops := by
  induction ops generalizing state with
  | nil =>
    cases completed
    exact (and_iff_left trivial).symm
  | cons op ops ih =>
    obtain ⟨next, stepped, finished⟩ := Option.bind_eq_some_iff.mp completed
    rw [ih (preserved state op next initial stepped) finished, exact_ state op next initial stepped, and_assoc]
    constructor
    · rintro ⟨holds, admitted, rest⟩
      refine ⟨holds, admitted, fun other reached => ?_⟩
      cases stepped.symm.trans reached
      exact rest
    · rintro ⟨holds, admitted, rest⟩
      exact ⟨holds, admitted, rest next stepped⟩

theorem guarded_iff (machine : Machine State Op) {first second : State → Op → Prop}
    (same : ∀ state op, invariant state → guard state op → (first state op ↔ second state op))
    (preserved : ∀ state op next, invariant state → guard state op → first state op →
      machine.step state op = some next → invariant next)
    (initial : invariant state) (guarded : machine.Guarded guard state ops) :
    machine.Guarded first state ops ↔ machine.Guarded second state ops := by
  induction ops generalizing state with
  | nil => exact .rfl
  | cons op ops ih =>
    obtain ⟨admitted, rest⟩ := guarded
    rw [Guarded, Guarded, ← same state op initial admitted]
    refine and_congr_right fun holds => forall_congr' fun next => forall_congr' fun stepped => ?_
    exact ih (preserved state op next initial admitted holds stepped) (rest next stepped)

theorem run_total_of_guarded (machine : Machine State Op) (preserved : ∀ state op, invariant state → guard state op →
      ∃ next, machine.step state op = some next ∧ invariant next)
    (initial : invariant state)
    (guarded : machine.Guarded guard state ops) :
    ∃ final, machine.run state ops = some final ∧ invariant final := by
  induction ops generalizing state with
  | nil => exact ⟨state, rfl, initial⟩
  | cons op ops ih =>
    obtain ⟨admitted, rest⟩ := guarded
    obtain ⟨next, stepped, holds⟩ := preserved state op initial admitted
    obtain ⟨final, completed, finally_⟩ := ih holds (rest next stepped)
    exact ⟨final, by simp only [run, stepped, Option.bind_some, completed], finally_⟩

theorem run_total (machine : Machine State Op)
    (preserved : ∀ state op, invariant state → ∃ next, machine.step state op = some next ∧ invariant next)
    (initial : invariant state) (ops : List Op) : ∃ final, machine.run state ops = some final ∧ invariant final :=
  machine.run_total_of_guarded (fun state op holds _ => preserved state op holds) initial
    (guarded_true state ops)

end Machine

section Reached

variable {Value Next : Type} {reached : Option Value}

instance decidableReached {shown : Value → Prop} [DecidablePred shown] :
    Decidable (∃ value, reached = some value ∧ shown value) :=
  inferInstanceAs (Decidable (∃ value ∈ reached, shown value))

/-- What is computed of the value that is reached implies the rest. -/
theorem exists_reached_of {holds : Value → Prop} (shown : Value → Prop) (computed : ∃ value ∈ reached, shown value)
    (implies : ∀ value, reached = some value → shown value → holds value) :
    ∃ value, reached = some value ∧ holds value := by
  obtain ⟨value, is, shows⟩ := computed
  exact ⟨value, is, implies value is shows⟩

theorem exists_reached_next_of {holds : Value → Next → Prop} (next : Value → Option Next) (shown : Value → Next → Prop)
    (computed : ∃ value ∈ reached, ∃ final ∈ next value, shown value final)
    (implies : ∀ value final, reached = some value → next value = some final → shown value final → holds value final) :
    ∃ value final, reached = some value ∧ holds value final := by
  obtain ⟨value, is, final, follows, shows⟩ := computed
  exact ⟨value, final, is, implies value final is follows shows⟩

theorem exists_reached_and {holds final : Value → Prop} (shown : Value → Prop)
    (returns : ∃ value, reached = some value ∧ holds value) (computed : ∃ value ∈ reached, shown value)
    (implies : ∀ value, holds value → shown value → final value) : ∃ value, reached = some value ∧ final value := by
  obtain ⟨value, is, held⟩ := returns
  refine exists_reached_of shown computed fun other same shows => implies other ?_ shows
  cases is.symm.trans same
  exact held

end Reached

section Calls

variable {Failure State Value Result : Type}

/-- The state that a call leaves, whether it returns or fails. -/
def after : EStateM.Result Failure State Value → State
  | .ok _ state => state
  | .error _ state => state

theorem get_bind (next : State → EStateM Failure State Result) (state : State) :
    (get >>= next) state = next state state := rfl

theorem modify_bind (change : State → State) (next : PUnit → EStateM Failure State Result) (state : State) :
    (modify change >>= next) state = next ⟨⟩ (change state) := rfl

variable {call other : EStateM Failure State Value} {middle : State} {next : Value → EStateM Failure State Result}

theorem bind_ok {state : State} {value : Value}
    (called : call state = .ok value middle) (next : Value → EStateM Failure State Result) :
    (call >>= next) state = next value middle := by
  show EStateM.bind call next state = _
  rw [EStateM.bind, called]

theorem bind_error {state : State} {failure : Failure}
    (called : call state = .error failure middle) (next : Value → EStateM Failure State Result) :
    (call >>= next) state = .error failure middle := by
  show EStateM.bind call next state = _
  rw [EStateM.bind, called]

theorem adaptExcept_error {Other : Type} {state : State}
    {failure : Failure} (called : call state = .error failure middle) (adapt : Failure → Other) :
    call.adaptExcept adapt state = .error (adapt failure) middle := by
  rw [EStateM.adaptExcept, called]

theorem bind_eq_ok {state last : State} {result : Result} (returned : (call >>= next) state = .ok result last) :
    ∃ value middle, call state = .ok value middle ∧ next value middle = .ok result last := by
  cases called : call state with
  | ok value middle =>
    rw [bind_ok called] at returned
    exact ⟨value, middle, rfl, returned⟩
  | error failure middle =>
    rw [bind_error called] at returned
    cases returned

theorem after_bind_pure (call : EStateM Failure State Value) (result : Value → Result) (state : State) :
    after ((call >>= fun value => pure (result value)) state) = after (call state) := by
  cases called : call state with
  | ok value middle => rw [bind_ok called]; rfl
  | error failure middle => rw [bind_error called]; rfl

theorem after_bind {invariant : State → Prop} {state : State} (first : invariant (after (call state)))
    (second : ∀ value middle, invariant middle → invariant (after (next value middle))) :
    invariant (after ((call >>= next) state)) := by
  show invariant (after (EStateM.bind call next state))
  rw [EStateM.bind]
  cases called : call state with
  | ok value middle =>
    rw [called] at first
    exact second value middle first
  | error reason middle =>
    rw [called] at first
    exact first

/-- A call that keeps an invariant of the state, whether it returns or fails. -/
structure Preserves (invariant : State → Prop) (call : EStateM Failure State Value) : Prop where
  kept : ∀ state, invariant state → invariant (after (call state))

variable {invariant : State → Prop}

theorem preserves_pure (value : Value) : Preserves invariant (pure value : EStateM Failure State Value) :=
  ⟨fun _ holds => holds⟩

theorem preserves_throw (failure : Failure) : Preserves invariant (throw failure : EStateM Failure State Value) :=
  ⟨fun _ holds => holds⟩

theorem preserves_get : Preserves invariant (get : EStateM Failure State State) := ⟨fun _ holds => holds⟩

theorem preserves_modify {change : State → State} (kept : ∀ state, invariant state → invariant (change state)) :
    Preserves invariant (modify change : EStateM Failure State PUnit) := ⟨kept⟩

theorem Preserves.bind (first : Preserves invariant call) (second : ∀ value, Preserves invariant (next value)) :
    Preserves invariant (call >>= next) := by
  constructor
  intro state holds
  exact after_bind (first.kept state holds) fun value middle kept => (second value).kept middle kept

theorem Preserves.ite {condition : Prop} [Decidable condition]
    (positive : Preserves invariant call) (negative : Preserves invariant other) :
    Preserves invariant (if condition then call else other) := by
  split
  · exact positive
  · exact negative

/-- A call that never ends in the `barred` failure and returns only values that meet `post`. -/
structure Ensures (barred : Failure) (call : EStateM Failure State Value) (post : Value → Prop) : Prop where
  returns : ∀ state value last, call state = .ok value last → post value
  fails : ∀ state failure last, call state = .error failure last → failure ≠ barred

variable {barred : Failure} {post : Value → Prop} {final : Result → Prop}

theorem ensures_pure {value : Value} (holds : post value) :
    Ensures barred (pure value : EStateM Failure State Value) post := by
  constructor
  · intro state other last returned
    cases returned
    exact holds
  · intro state failure last failed
    cases failed

theorem ensures_throw {failure : Failure} (other : failure ≠ barred) (post : Value → Prop) :
    Ensures barred (throw failure : EStateM Failure State Value) post := by
  constructor
  · intro state value last returned
    cases returned
  · intro state reason last failed
    cases failed
    exact other

theorem ensures_get : Ensures barred (get : EStateM Failure State State) fun _ => True :=
  ⟨fun _ _ _ _ => trivial, fun _ _ _ failed => by cases failed⟩

theorem ensures_modify (change : State → State) :
    Ensures barred (modify change : EStateM Failure State PUnit) fun _ => True :=
  ⟨fun _ _ _ _ => trivial, fun _ _ _ failed => by cases failed⟩

theorem Ensures.bind
    (first : Ensures barred call post) (second : ∀ value, post value → Ensures barred (next value) final) :
    Ensures barred (call >>= next) final := by
  constructor
  · intro state result last returned
    obtain ⟨value, middle, called, finished⟩ := bind_eq_ok returned
    exact (second value (first.returns state value middle called)).returns middle result last finished
  · intro state failure last failed
    cases called : call state with
    | ok value middle =>
      rw [bind_ok called] at failed
      exact (second value (first.returns state value middle called)).fails middle failure last failed
    | error reason middle =>
      rw [bind_error called] at failed
      cases failed
      exact first.fails state failure last called

theorem Ensures.outcome (ensures : Ensures barred call post) (state : State) :
    (∃ failure last, call state = .error failure last ∧ failure ≠ barred) ∨
      ∃ value last, call state = .ok value last ∧ post value := by
  cases called : call state with
  | ok value last => exact .inr ⟨value, last, rfl, ensures.returns state value last called⟩
  | error failure last => exact .inl ⟨failure, last, rfl, ensures.fails state failure last called⟩

theorem Ensures.mono {weaker : Value → Prop} (ensures : Ensures barred call post)
    (implied : ∀ value, post value → weaker value) : Ensures barred call weaker :=
  ⟨fun state value last returned => implied value (ensures.returns state value last returned), ensures.fails⟩

theorem Ensures.map {f : Value → Result} (ensures : Ensures barred call post)
    (mapped : ∀ value, post value → final (f value)) : Ensures barred (f <$> call) final := by
  rw [map_eq_pure_bind]
  exact ensures.bind fun value holds => ensures_pure (mapped value holds)

theorem Ensures.ite {condition : Prop} [Decidable condition]
    (positive : condition → Ensures barred call post) (negative : ¬ condition → Ensures barred other post) :
    Ensures barred (if condition then call else other) post := by
  split
  · rename_i holds
    exact positive holds
  · rename_i holds
    exact negative holds

theorem Ensures.bind_congr {other : Value → EStateM Failure State Result}
    (ensures : Ensures barred call post) (same : ∀ value, post value → next value = other value) :
    call >>= next = call >>= other := by
  funext state
  cases called : call state with
  | ok value middle =>
    rw [bind_ok called, bind_ok called, same value (ensures.returns state value middle called)]
  | error failure middle => rw [bind_error called, bind_error called]

end Calls

end Quiche.Data
