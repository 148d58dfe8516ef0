import Mathlib.Data.List.Induction
import Quiche.H3.Frame.Payload

namespace Quiche.H3

/-- The frame type is not one that HTTP/3 knows. -/
def Unknown (ty : Nat) : Prop := ty ∉ Frame.knownTypes

instance (ty : Nat) : Decidable (Unknown ty) := inferInstanceAs (Decidable (ty ∉ Frame.knownTypes))

/-- The types are those of a whole message: a HEADERS frame, a body and at most one HEADERS frame of trailers, with
unknown frames in between. -/
def Matches (types : List Nat) : Prop :=
  ∃ before body, (∀ ty ∈ before, Unknown ty) ∧ (∀ ty ∈ body, ty = dataFrameTypeId ∨ Unknown ty) ∧
    (types = before ++ headersFrameTypeId :: body ∨ ∃ after, (∀ ty ∈ after, Unknown ty) ∧
        types = before ++ headersFrameTypeId :: (body ++ headersFrameTypeId :: after))

/-- The frames of a message that may not be complete yet. -/
def Viable (types : List Nat) : Prop := ∃ rest, Matches (types ++ rest)

/-- Where in a message a request stream is; `data` says whether a body was seen. -/
inductive Phase where
  | start
  | body (data : Bool)
  | trailers (data : Bool)
deriving DecidableEq, Repr

namespace Phase

def next (phase : Phase) (ty : Nat) : Option Phase :=
  if Unknown ty then some phase
  else
    match phase with
    | .start => if ty = headersFrameTypeId then some (.body false) else none
    | .body data =>
      if ty = headersFrameTypeId then some (.trailers data)
      else if ty = dataFrameTypeId then some (.body true)
      else none
    | .trailers _ => none

def run : Phase → List Nat → Option Phase
  | phase, [] => some phase
  | phase, ty :: types => (phase.next ty).bind fun after => run after types

variable {phase after : Phase} {types before body rest : List Nat} {ty : Nat}

theorem run_append (phase : Phase) (first second : List Nat) :
    phase.run (first ++ second) = (phase.run first).bind fun middle => middle.run second := by
  induction first generalizing phase with
  | nil => rfl
  | cons ty types ih =>
    simp only [List.cons_append, run]
    cases phase.next ty with
    | none => rfl
    | some middle => exact ih middle

theorem run_snoc (phase : Phase) (types : List Nat) (ty : Nat) :
    phase.run (types ++ [ty]) = (phase.run types).bind fun middle => middle.next ty := by
  rw [run_append]
  cases phase.run types with
  | none => rfl
  | some middle => simp [run]

theorem next_unknown (unknown : Unknown ty) : phase.next ty = some phase := if_pos unknown

theorem next_start (known : ¬ Unknown ty) :
    start.next ty = if ty = headersFrameTypeId then some (.body false) else none := if_neg known

theorem next_body {data : Bool} (known : ¬ Unknown ty) :
    (Phase.body data).next ty = if ty = headersFrameTypeId then some (.trailers data)
      else if ty = dataFrameTypeId then some (.body true)
      else none := if_neg known

theorem next_trailers {data : Bool} (known : ¬ Unknown ty) : (trailers data).next ty = none := if_neg known

theorem headers_known : ¬ Unknown headersFrameTypeId := by decide

theorem data_known : ¬ Unknown dataFrameTypeId := by decide

theorem run_unknown (unknown : ∀ ty ∈ types, Unknown ty) : phase.run types = some phase := by
  induction types with
  | nil => rfl
  | cons ty types ih =>
    obtain ⟨head, tail⟩ := List.forall_mem_cons.mp unknown
    rw [run, next_unknown head]
    exact ih tail

theorem run_body (parts : ∀ ty ∈ body, ty = dataFrameTypeId ∨ Unknown ty) (data : Bool) :
    ∃ seen, (Phase.body data).run body = some (.body seen) := by
  induction body generalizing data with
  | nil => exact ⟨data, rfl⟩
  | cons ty body ih =>
    obtain ⟨head, tail⟩ := List.forall_mem_cons.mp parts
    rcases head with rfl | unknown
    · exact ih tail true
    · rw [run, next_unknown unknown]
      exact ih tail data

theorem run_matches (matched : Matches types) : ∃ phase, start.run types = some phase := by
  obtain ⟨before, body, unknown, parts, rfl | ⟨after, trailing, rfl⟩⟩ := matched
  · obtain ⟨seen, ran⟩ := run_body parts false
    rw [run_append, run_unknown unknown]
    exact ⟨_, ran⟩
  · obtain ⟨seen, ran⟩ := run_body parts false
    refine ⟨.trailers seen, ?_⟩
    rw [run_append, run_unknown unknown]
    show (Phase.body false).run (body ++ headersFrameTypeId :: after) = _
    rw [run_append, ran]
    exact run_unknown trailing

/-- The types bring a request stream into the phase. -/
def Shape (types : List Nat) : Phase → Prop
  | .start => ∀ ty ∈ types, Unknown ty
  | .body data => ∃ before body, (∀ ty ∈ before, Unknown ty) ∧ (∀ ty ∈ body, ty = dataFrameTypeId ∨ Unknown ty) ∧
      (data = true ↔ dataFrameTypeId ∈ body) ∧ types = before ++ headersFrameTypeId :: body
  | .trailers data => ∃ before body after, (∀ ty ∈ before, Unknown ty) ∧
      (∀ ty ∈ body, ty = dataFrameTypeId ∨ Unknown ty) ∧ (∀ ty ∈ after, Unknown ty) ∧
      (data = true ↔ dataFrameTypeId ∈ body) ∧
      types = before ++ headersFrameTypeId :: (body ++ headersFrameTypeId :: after)

theorem forall_mem_snoc {holds : Nat → Prop} (every : ∀ ty ∈ types, holds ty) (last : holds ty) :
    ∀ other ∈ types ++ [ty], holds other := List.forall_mem_append.mpr ⟨every, List.forall_mem_singleton.mpr last⟩

theorem shape_next (shape : Shape types phase) (moved : phase.next ty = some after) : Shape (types ++ [ty]) after := by
  by_cases unknown : Unknown ty
  · rw [next_unknown unknown] at moved
    cases moved
    have other : ty ≠ dataFrameTypeId := fun same => data_known (same ▸ unknown)
    cases phase with
    | start => exact forall_mem_snoc shape unknown
    | body data =>
      obtain ⟨before, body, first, parts, seen, rfl⟩ := shape
      refine ⟨before, body ++ [ty], first, forall_mem_snoc parts (.inr unknown), ?_, by simp⟩
      rw [seen]
      simp [other.symm]
    | trailers data =>
      obtain ⟨before, body, tail, first, parts, trailing, seen, rfl⟩ := shape
      exact ⟨before, body, tail ++ [ty], first, parts, forall_mem_snoc trailing unknown, seen, by simp⟩
  · cases phase with
    | start =>
      rw [next_start unknown] at moved
      obtain ⟨rfl, rfl⟩ : ty = headersFrameTypeId ∧ after = .body false := by grind
      exact ⟨types, [], shape, by simp, by simp, rfl⟩
    | body data =>
      obtain ⟨before, body, first, parts, seen, rfl⟩ := shape
      rw [next_body unknown] at moved
      by_cases header : ty = headersFrameTypeId
      · rw [if_pos header] at moved
        cases moved
        exact ⟨before, body, [], first, parts, by simp, seen, by rw [header]; simp⟩
      · rw [if_neg header] at moved
        obtain ⟨rfl, rfl⟩ : ty = dataFrameTypeId ∧ after = .body true := by grind
        exact ⟨before, body ++ [dataFrameTypeId], first, forall_mem_snoc parts (.inl rfl), by simp, by simp⟩
    | trailers data =>
      rw [next_trailers unknown] at moved
      cases moved

theorem run_shape (ran : start.run types = some phase) : Shape types phase := by
  induction types using List.reverseRecOn generalizing phase with
  | nil =>
    cases ran
    exact fun ty member => absurd member List.not_mem_nil
  | append_singleton types ty ih =>
    rw [run_snoc] at ran
    obtain ⟨middle, reached, moved⟩ := Option.bind_eq_some_iff.mp ran
    exact shape_next (ih reached) moved

theorem Shape.viable (shape : Shape types phase) : Viable types := by
  cases phase with
  | start => exact ⟨[headersFrameTypeId], types, [], shape, by simp, .inl rfl⟩
  | body data =>
    obtain ⟨before, body, first, parts, _, rfl⟩ := shape
    exact ⟨[], before, body, first, parts, .inl (by rw [List.append_nil])⟩
  | trailers data =>
    obtain ⟨before, body, after, first, parts, trailing, _, rfl⟩ := shape
    exact ⟨[], before, body, first, parts, .inr ⟨after, trailing, by rw [List.append_nil]⟩⟩

theorem viable_iff : Viable types ↔ ∃ phase, start.run types = some phase := by
  constructor
  · rintro ⟨rest, matched⟩
    obtain ⟨phase, ran⟩ := run_matches matched
    rw [run_append] at ran
    obtain ⟨middle, reached, _⟩ := Option.bind_eq_some_iff.mp ran
    exact ⟨middle, reached⟩
  · rintro ⟨phase, ran⟩
    exact (run_shape ran).viable

end Phase

end Quiche.H3
