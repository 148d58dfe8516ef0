import Mathlib.Data.List.Basic

namespace Quiche.Data

/-! Decoding of a prefix code, bit by bit along its tree. -/

/-- A binary code tree with a label at each inner node. -/
inductive CodeTree (Label Symbol : Type) where
  | leaf (symbol : Symbol)
  | node (label : Label) (zero one : CodeTree Label Symbol)

variable {Label Symbol : Type}

namespace CodeTree

def child : CodeTree Label Symbol → Bool → CodeTree Label Symbol
  | leaf symbol, _ => leaf symbol
  | node _ zero one, bit => bif bit then one else zero

/-- The symbols read from `cursor` on, and where the tree is left. Behind each symbol the next
one begins at `root`. -/
def decode (root : CodeTree Label Symbol) : CodeTree Label Symbol → List Bool → List Symbol × CodeTree Label Symbol
  | cursor, [] => ([], cursor)
  | cursor, bit :: bits =>
    match cursor.child bit with
    | leaf symbol =>
      let (symbols, last) := decode root root bits
      (symbol :: symbols, last)
    | node label zero one => decode root (node label zero one) bits

def inner : CodeTree Label Symbol → List (CodeTree Label Symbol)
  | leaf _ => []
  | node label zero one => node label zero one :: (zero.inner ++ one.inner)

def behind (bit : Bool) (words : List (List Bool × Symbol)) : List (List Bool × Symbol) := words.filterMap fun
    | ([], _) => none
    | (first :: rest, symbol) => bif first == bit then some (rest, symbol) else none

/-- The tree of a code, with its inner nodes numbered from `next` on, and the number behind them. -/
def ofCode : Nat → Nat → List (List Bool × Symbol) → Option (CodeTree Nat Symbol × Nat)
  | _, next, [([], symbol)] => some (leaf symbol, next)
  | 0, _, _ => none
  | depth + 1, next, words => do
    let (zero, middle) ← ofCode depth (next + 1) (behind false words)
    let (one, last) ← ofCode depth middle (behind true words)
    return (node next zero one, last)

variable {root cursor : CodeTree Label Symbol} {first second bits : List Bool}

theorem decode_append (root cursor : CodeTree Label Symbol) (first second : List Bool) :
    decode root cursor (first ++ second) =
      ((decode root cursor first).1 ++ (decode root (decode root cursor first).2 second).1,
        (decode root (decode root cursor first).2 second).2) := by
  induction first generalizing cursor with
  | nil => rfl
  | cons bit bits ih =>
    rw [List.cons_append, decode, decode]
    cases cursor.child bit with
    | leaf symbol => simp only [ih root, List.cons_append]
    | node label zero one => exact ih (node label zero one)

theorem decode_words {Item : Type} {code : Item → List Bool} {symbolOf : Item → Symbol} {items : List Item}
    (words : ∀ item ∈ items, decode root root (code item) = ([symbolOf item], root)) (rest : List Bool) :
    decode root root (items.flatMap code ++ rest) =
      (items.map symbolOf ++ (decode root root rest).1, (decode root root rest).2) := by
  induction items with
  | nil => rfl
  | cons item items ih =>
    obtain ⟨word, others⟩ := List.forall_mem_cons.mp words
    rw [List.flatMap_cons, List.append_assoc, decode_append, word, ih others]
    rfl

theorem self_mem_inner (label : Label) (zero one : CodeTree Label Symbol) :
    node label zero one ∈ (node label zero one).inner := List.mem_cons_self

theorem inner_child (bit : Bool) (tree : CodeTree Label Symbol) (member : cursor ∈ tree.inner) {label : Label}
    {zero one : CodeTree Label Symbol} (next : cursor.child bit = node label zero one) :
    node label zero one ∈ tree.inner := by
  induction tree with
  | leaf symbol => contradiction
  | node top left right leftIh rightIh =>
    rcases List.mem_cons.mp member with same | below
    · rw [same] at next
      cases bit with
      | false =>
        have there : left = node label zero one := next
        rw [inner, there]
        exact List.mem_cons_of_mem _ (List.mem_append_left _ (self_mem_inner label zero one))
      | true =>
        have there : right = node label zero one := next
        rw [inner, there]
        exact List.mem_cons_of_mem _ (List.mem_append_right _ (self_mem_inner label zero one))
    · refine List.mem_cons_of_mem _ (List.mem_append.mpr ?_)
      rcases List.mem_append.mp below with inLeft | inRight
      · exact .inl (leftIh inLeft)
      · exact .inr (rightIh inRight)

theorem decode_inner (rooted : root ∈ root.inner) (member : cursor ∈ root.inner) (bits : List Bool) :
    (decode root cursor bits).2 ∈ root.inner := by
  induction bits generalizing cursor with
  | nil => exact member
  | cons bit bits ih =>
    rw [decode]
    cases next : cursor.child bit with
    | leaf symbol => exact ih rooted
    | node label zero one => exact ih (inner_child bit root member next)

end CodeTree

end Quiche.Data
