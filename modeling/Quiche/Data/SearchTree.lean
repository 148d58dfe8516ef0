import Mathlib.Data.List.TakeWhile

namespace Quiche.Data

/-! Insertion into a search tree by a comparison that need not be an order. Only the in-order
list of the elements is observed, which rebalancing leaves alone. -/

inductive SearchTree (α : Type) where
  | leaf
  | node (left : SearchTree α) (value : α) (right : SearchTree α)

namespace SearchTree

variable {α : Type} (less : α → α → Bool)

def inorder : SearchTree α → List α
  | leaf => []
  | node left value right => left.inorder ++ value :: right.inorder

/-- Inserts at the leaf that the comparisons lead to. -/
def insert (key : α) : SearchTree α → SearchTree α
  | leaf => node leaf key leaf
  | node left value right =>
    if less key value then node (left.insert key) value right else node left value (right.insert key)

def place (key : α) (values : List α) : List α :=
  values.takeWhile (!less key ·) ++ key :: values.dropWhile (!less key ·)

variable {less} {key : α} {left right : List α} {value : α}

theorem place_cons (isLess : less key value = true) : place less key (value :: right) = key :: value :: right := by
  simp [place, isLess]

theorem place_append (others : ∀ other ∈ left, less key other = false) :
    place less key (left ++ right) = left ++ place less key right := by
  induction left with
  | nil => rfl
  | cons first rest ih =>
    obtain ⟨skipped, more⟩ := List.forall_mem_cons.mp others
    have moved := ih more
    simp only [place, List.cons_append, skipped, Bool.not_false, List.takeWhile_cons_of_pos,
      List.dropWhile_cons_of_pos] at moved ⊢
    rw [moved]

/-- The key splits the values: behind one that it is below of, it is below of all. -/
def Splits (less : α → α → Bool) (key : α) (values : List α) : Prop :=
  values.Pairwise fun first second => less key first = true → less key second = true

theorem Splits.less_of_mem {values : List α} (splits : Splits less key values) {other : α}
    (member : other ∈ values.dropWhile (!less key ·)) : less key other = true := by
  induction values with
  | nil => simp at member
  | cons first rest ih =>
    obtain ⟨later, tail⟩ := List.pairwise_cons.mp splits
    cases before : less key first with
    | false =>
      rw [List.dropWhile_cons_of_pos (by simp [before])] at member
      exact ih tail member
    | true =>
      rw [List.dropWhile_cons_of_neg (by simp [before])] at member
      rcases List.mem_cons.mp member with rfl | inRest
      · exact before
      · exact later other inRest before

theorem place_append_cons (splits : Splits less key (left ++ value :: right)) (isLess : less key value = true) :
    place less key (left ++ value :: right) = place less key left ++ value :: right := by
  induction left with
  | nil => simp [place, isLess]
  | cons first rest ih =>
    rw [List.cons_append] at splits ⊢
    obtain ⟨_, tail⟩ := List.pairwise_cons.mp splits
    have moved := ih tail
    cases before : less key first with
    | true => rw [place_cons before, place_cons before]; rfl
    | false =>
      have skip : ∀ values, place less key (first :: values) = first :: place less key values := by
        intro values
        have others : ∀ other ∈ [first], less key other = false := by
          rintro other (_ | ⟨_, none⟩)
          · exact before
          · cases none
        exact place_append others
      rw [skip, skip, moved]
      rfl

theorem inorder_insert {tree : SearchTree α} (splits : Splits less key tree.inorder) :
    (tree.insert less key).inorder = place less key tree.inorder := by
  induction tree with
  | leaf => rfl
  | node left value right leftIH rightIH =>
    rw [inorder, Splits, List.pairwise_append] at splits
    obtain ⟨atLeft, atRight, across⟩ := splits
    rw [insert]
    cases isLess : less key value with
    | true =>
      have whole : Splits less key (left.inorder ++ value :: right.inorder) :=
        List.pairwise_append.mpr ⟨atLeft, atRight, across⟩
      rw [if_pos rfl, inorder, inorder, leftIH atLeft, place_append_cons whole isLess]
    | false =>
      have others : ∀ other ∈ left.inorder ++ [value], less key other = false := by
        intro other member
        rcases List.mem_append.mp member with inLeft | here
        · cases before : less key other with
          | false => rfl
          | true =>
            have after := across other inLeft value List.mem_cons_self before
            rw [isLess] at after
            cases after
        · rw [List.mem_singleton.mp here, isLess]
      have placed : place less key (left.inorder ++ [value] ++ right.inorder) =
          left.inorder ++ [value] ++ place less key right.inorder := place_append others
      simp only [List.append_assoc, List.singleton_append] at placed
      rw [if_neg Bool.false_ne_true, inorder, inorder, rightIH (List.pairwise_cons.mp atRight).2, placed]

end SearchTree

end Quiche.Data
