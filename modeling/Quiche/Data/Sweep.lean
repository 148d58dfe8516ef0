import Mathlib.Init

namespace Quiche.Data

/-! A `for` loop over the items of a list that changes them in place, and may end early.
`none` is a panic in its body. -/

variable {Item Acc : Type}

def sweep (body : Acc → Item → Option (Acc × Item × Bool)) : Acc → List Item → Option (Acc × List Item)
  | acc, [] => some (acc, [])
  | acc, item :: rest => do
    let (acc, item, goesOn) ← body acc item
    if goesOn then
      let (acc, rest) ← sweep body acc rest
      return (acc, item :: rest)
    else return (acc, item :: rest)

variable {body : Acc → Item → Option (Acc × Item × Bool)} {acc next : Acc} {item new : Item} {rest swept : List Item}

theorem sweep_cons_of_on (turn : body acc item = some (next, new, true)) :
    sweep body acc (item :: rest) = (sweep body next rest).map fun (acc, rest) => (acc, new :: rest) := by
  rw [sweep, turn]
  show (sweep body next rest).bind (fun looped => some (looped.1, new :: looped.2)) = _
  cases sweep body next rest <;> rfl

theorem sweep_cons_of_end (turn : body acc item = some (next, new, false)) :
    sweep body acc (item :: rest) = some (next, new :: rest) := by
  rw [sweep, turn]
  rfl

theorem sweep_keeps (invariant : Acc → Prop)
    (kept : ∀ acc item next new goesOn, invariant acc → body acc item = some (next, new, goesOn) → invariant next)
    (holds : invariant acc) (done : sweep body acc rest = some (next, swept)) : invariant next := by
  induction rest generalizing acc swept with
  | nil =>
    cases done
    exact holds
  | cons item rest ih =>
    rw [sweep] at done
    obtain ⟨⟨after, new, goesOn⟩, turn, done⟩ := Option.bind_eq_some_iff.mp done
    have later := kept acc item after new goesOn holds turn
    cases goesOn with
    | false =>
      cases done
      exact later
    | true =>
      obtain ⟨⟨last, others⟩, looped, done⟩ := Option.bind_eq_some_iff.mp done
      cases done
      exact ih later looped

end Quiche.Data
