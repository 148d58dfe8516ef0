import Mathlib.Data.List.Basic

namespace Quiche.Data

/-! Readers and writers over a position in a buffer, as computations in `EStateM`.

`Reads` and `Writes` say on which input a reader succeeds and what output a writer
leaves; both compose along `>>=` the way the bytes concatenate. -/

structure Cursor (State Byte : Type) where
  rest : State → List Byte
  advance : Nat → State → State
  rest_advance : ∀ count state, rest (advance count state) = (rest state).drop count
  advance_zero : ∀ state, advance 0 state = state
  advance_advance : ∀ first second state, advance second (advance first state) = advance (first + second) state

structure Tape (State Byte : Type) where
  room : State → Nat
  append : List Byte → State → State
  room_append : ∀ output state, output.length ≤ room state → room (append output state) + output.length = room state
  append_nil : ∀ state, append [] state = state
  append_append : ∀ first second state, first.length + second.length ≤ room state →
    append second (append first state) = append (first ++ second) state

variable {State Byte Failure Other Value Result : Type}

section Reads

variable (cursor : Cursor State Byte)

variable {cursor} in
theorem Cursor.rest_behind {input tail : List Byte} {state : State} (front : cursor.rest state = input ++ tail) :
    cursor.rest (cursor.advance input.length state) = tail := by
  rw [cursor.rest_advance, front, List.drop_left]

/-- The reader consumes exactly `input`, whatever follows it, and yields `value`. -/
def Reads (get : EStateM Failure State Value) (input : List Byte) (value : Value) : Prop :=
  ∀ state tail, cursor.rest state = input ++ tail → get state = .ok value (cursor.advance input.length state)

variable {cursor} {input first second : List Byte} {value : Value} {result : Result}
  {get : EStateM Failure State Value} {next : Value → EStateM Failure State Result}

theorem reads_pure (value : Value) : Reads cursor (pure value : EStateM Failure State Value) [] value := by
  intro state tail _
  rw [List.length_nil, cursor.advance_zero]
  rfl

theorem Reads.bind (head : Reads cursor get first value) (rest : Reads cursor (next value) second result) :
    Reads cursor (get >>= next) (first ++ second) result := by
  intro state tail front
  rw [List.append_assoc] at front
  have taken := head state (second ++ tail) front
  have finished := rest _ tail (cursor.rest_behind front)
  rw [cursor.advance_advance, ← List.length_append] at finished
  rw [← finished]
  show EStateM.bind get next state = _
  simp only [EStateM.bind, taken]

section

variable (head : Reads cursor get input value)

include head

theorem Reads.run {state : State} {tail : List Byte}
    (front : cursor.rest state = input ++ tail) :
    (get >>= next) state = next value (cursor.advance input.length state) ∧
      cursor.rest (cursor.advance input.length state) = tail := by
  constructor
  · show EStateM.bind get next state = _
    simp only [EStateM.bind, head state tail front]
  · exact cursor.rest_behind front

theorem Reads.map (f : Value → Result) :
    Reads cursor (f <$> get) input (f value) := by
  intro state tail front
  show EStateM.map f get state = _
  simp only [EStateM.map, head state tail front]

theorem Reads.adaptExcept (adapt : Failure → Other) :
    Reads cursor (get.adaptExcept adapt) input value := by
  intro state tail front
  simp only [EStateM.adaptExcept, head state tail front]

theorem Reads.bind_pure
    (rest : next value = pure result) : Reads cursor (get >>= next) input result := by
  have whole := head.bind (rest ▸ reads_pure result)
  rwa [List.append_nil] at whole

end

end Reads

section Writes

variable (tape : Tape State Byte)

/-- Wherever `output` fits, the writer appends exactly it and yields `value`. -/
def Writes (put : EStateM Failure State Value) (output : List Byte) (value : Value) : Prop :=
  ∀ state, output.length ≤ tape.room state → put state = .ok value (tape.append output state)

variable {tape} {first second : List Byte} {value : Value} {result : Result}
  {put : EStateM Failure State Value} {next : Value → EStateM Failure State Result}

theorem writes_pure (value : Value) : Writes tape (pure value : EStateM Failure State Value) [] value := by
  intro state _
  rw [tape.append_nil]
  rfl

theorem Writes.bind (head : Writes tape put first value) (rest : Writes tape (next value) second result) :
    Writes tape (put >>= next) (first ++ second) result := by
  intro state fits
  rw [List.length_append] at fits
  have left := tape.room_append first state (by omega)
  have written := head state (by omega)
  have finished := rest (tape.append first state) (by omega)
  rw [tape.append_append first second state fits] at finished
  rw [← finished]
  show EStateM.bind put next state = _
  simp only [EStateM.bind, written]

theorem Writes.adaptExcept (head : Writes tape put first value) (adapt : Failure → Other) :
    Writes tape (put.adaptExcept adapt) first value := by
  intro state fits
  simp only [EStateM.adaptExcept, head state fits]

end Writes

section Spends

variable (tape : Tape State Byte) (failure : Failure)

/-- The writer appends exactly `cost` bytes where they fit and yields `value`; with less room it fails. -/
structure Spends (put : EStateM Failure State Value) (cost : Nat) (value : Value) : Prop where
  fits : ∀ state, cost ≤ tape.room state →
    ∃ output, output.length = cost ∧ put state = .ok value (tape.append output state)
  short : ∀ state, tape.room state < cost → ∃ after, put state = .error failure after

variable {tape} {failure} {cost first second : Nat} {value : Value} {result : Result}
  {put : EStateM Failure State Value} {next : Value → EStateM Failure State Result}

theorem spends_pure (value : Value) : Spends tape failure (pure value : EStateM Failure State Value) 0 value where
  fits := fun state _ => ⟨[], rfl, by rw [tape.append_nil]; rfl⟩
  short := fun _ less => absurd less (Nat.not_lt_zero _)

theorem Spends.room (spends : Spends tape failure put cost value) {state : State} (enough : cost ≤ tape.room state) :
    ∃ after, put state = .ok value after ∧ tape.room after + cost = tape.room state := by
  obtain ⟨output, rfl, written⟩ := spends.fits state enough
  exact ⟨_, written, tape.room_append output state enough⟩

theorem Spends.bind (head : Spends tape failure put first value)
    (rest : Spends tape failure (next value) second result) :
    Spends tape failure (put >>= next) (first + second) result := by
  have run : ∀ state after, put state = .ok value after → (put >>= next) state = next value after := by
    intro state after written
    show EStateM.bind put next state = _
    simp only [EStateM.bind, written]
  constructor
  · intro state enough
    obtain ⟨output, rfl, written⟩ := head.fits state (by omega)
    have left := tape.room_append output state (by omega)
    obtain ⟨tail, rfl, finished⟩ := rest.fits (tape.append output state) (by omega)
    refine ⟨output ++ tail, List.length_append, ?_⟩
    rw [run state _ written, finished, tape.append_append output tail state enough]
  · intro state less
    by_cases enough : first ≤ tape.room state
    · obtain ⟨middle, written, left⟩ := head.room enough
      obtain ⟨after, failed⟩ := rest.short middle (by omega)
      exact ⟨after, by rw [run state middle written, failed]⟩
    · obtain ⟨after, failed⟩ := head.short state (Nat.not_le.mp enough)
      refine ⟨after, ?_⟩
      show EStateM.bind put next state = _
      simp only [EStateM.bind, failed]

theorem Spends.adaptExcept (head : Spends tape failure put cost value) (adapt : Failure → Other) :
    Spends tape (adapt failure) (put.adaptExcept adapt) cost value := by
  constructor
  · intro state enough
    obtain ⟨output, length, written⟩ := head.fits state enough
    exact ⟨output, length, by simp only [EStateM.adaptExcept, written]⟩
  · intro state less
    obtain ⟨after, failed⟩ := head.short state less
    exact ⟨after, by simp only [EStateM.adaptExcept, failed]⟩

theorem Spends.of_eq {other : Nat} (spends : Spends tape failure put cost value) (same : cost = other) :
    Spends tape failure put other value := same ▸ spends

end Spends

section Emits

variable (tape : Tape State Byte) (failure : Failure)

/-- The writer appends exactly `output` where it fits, and fails where it does not. -/
structure Emits (put : EStateM Failure State Value) (output : List Byte) (value : Value) : Prop where
  writes : Writes tape put output value
  spends : Spends tape failure put output.length value

variable {tape} {failure} {first second : List Byte} {value : Value} {result : Result}
  {put : EStateM Failure State Value} {next : Value → EStateM Failure State Result}

theorem emits_pure (value : Value) : Emits tape failure (pure value : EStateM Failure State Value) [] value where
  writes := writes_pure value
  spends := spends_pure value

theorem Emits.bind (head : Emits tape failure put first value) (rest : Emits tape failure (next value) second result) :
    Emits tape failure (put >>= next) (first ++ second) result where
  writes := head.writes.bind rest.writes
  spends := (head.spends.bind rest.spends).of_eq List.length_append.symm

theorem Emits.adaptExcept (head : Emits tape failure put first value) (adapt : Failure → Other) :
    Emits tape (adapt failure) (put.adaptExcept adapt) first value where
  writes := head.writes.adaptExcept adapt
  spends := head.spends.adaptExcept adapt

theorem Emits.of_ok (emits : Emits tape failure put first value) {state after : State} {returned : Value}
    (ran : put state = .ok returned after) :
    first.length ≤ tape.room state ∧ returned = value ∧ after = tape.append first state := by
  by_cases fits : first.length ≤ tape.room state
  · rw [emits.writes state fits] at ran
    injection ran with same place
    exact ⟨fits, same.symm, place.symm⟩
  · obtain ⟨broken, failed⟩ := emits.spends.short state (Nat.not_le.mp fits)
    rw [failed] at ran
    contradiction

end Emits

section Fails

variable {call : EStateM Failure State Value}

/-- The call fails from every state. -/
def Fails (call : EStateM Failure State Value) : Prop := ∀ state, ∃ failure after, call state = .error failure after

theorem fails_throw (failure : Failure) : Fails (throw failure : EStateM Failure State Value) :=
  fun state => ⟨failure, state, rfl⟩

theorem Fails.adaptExcept (fails : Fails call) (adapt : Failure → Other) : Fails (call.adaptExcept adapt) := by
  intro state
  obtain ⟨failure, after, failed⟩ := fails state
  exact ⟨adapt failure, after, by simp only [EStateM.adaptExcept, failed]⟩

theorem Fails.bind (fails : Fails call) (next : Value → EStateM Failure State Result) : Fails (call >>= next) := by
  intro state
  obtain ⟨failure, after, failed⟩ := fails state
  refine ⟨failure, after, ?_⟩
  show EStateM.bind call next state = _
  simp only [EStateM.bind, failed]

theorem Fails.after {next : Value → EStateM Failure State Result} (fails : ∀ value, Fails (next value))
    (call : EStateM Failure State Value) : Fails (call >>= next) := by
  intro state
  show ∃ failure after, EStateM.bind call next state = _
  simp only [EStateM.bind]
  cases call state with
  | ok value middle => exact fails value middle
  | error failure after => exact ⟨failure, after, rfl⟩

end Fails

end Quiche.Data
