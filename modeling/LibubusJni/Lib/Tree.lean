import Mathlib.Data.List.Basic
import Mathlib.Data.Nat.Fib.Basic
import Mathlib.Data.Tree.Basic
import Mathlib.Tactic.Tauto

/-!
# Binary trees with a hole

A tree, and the way from one of its subtrees up to the root.  A value may carry a
number that is meant to be the difference in height of the two subtrees below
it; a tree in which these numbers are right and small is high only if it is
large.
-/

namespace BinaryTree

universe u

variable {Value : Type u}

/-- What a subtree hangs on: its parent, with the other subtree of it. -/
inductive Parent (Value : Type u) where
  | left (value : Value) (right : BinaryTree Value)
  | right (value : Value) (left : BinaryTree Value)
  deriving DecidableEq, Repr

def inorder : BinaryTree Value → List Value
  | nil => []
  | node value left right => left.inorder ++ value :: right.inorder

/-- The tree at the parent. -/
def under (tree : BinaryTree Value) : Parent Value → BinaryTree Value
  | .left value right => node value tree right
  | .right value left => node value left tree

/-- The whole tree; the parents are listed from the hole upwards. -/
def fill (tree : BinaryTree Value) (path : List (Parent Value)) :
    BinaryTree Value :=
  path.foldl under tree

/-- The values in front of the hole. -/
def before : List (Parent Value) → List Value
  | [] => []
  | .left _ _ :: path => before path
  | .right value left :: path => before path ++ (left.inorder ++ [value])

/-- The values behind the hole. -/
def behind : List (Parent Value) → List Value
  | [] => []
  | .left value right :: path => (value :: right.inorder) ++ behind path
  | .right _ _ :: path => behind path

@[simp]
theorem fill_nil (tree : BinaryTree Value) : tree.fill [] = tree := rfl

@[simp]
theorem fill_cons (tree : BinaryTree Value) (parent : Parent Value)
    (path : List (Parent Value)) :
    tree.fill (parent :: path) = (tree.under parent).fill path := rfl

theorem inorder_fill (tree : BinaryTree Value) (path : List (Parent Value)) :
    (tree.fill path).inorder = before path ++ (tree.inorder ++ behind path) := by
  induction path generalizing tree with
  | nil =>
      exact (List.append_nil _).symm
  | cons parent path inductionHypothesis =>
      rw [fill_cons, inductionHypothesis]
      cases parent with
      | left value right =>
          simp [under, before, behind, inorder]
      | right value left =>
          simp [under, before, behind, inorder]

/-- The way up to the root is at most as long as the tree is high. -/
theorem length_add_height_le (tree : BinaryTree Value)
    (path : List (Parent Value)) :
    path.length + tree.height ≤ (tree.fill path).height := by
  induction path generalizing tree with
  | nil =>
      exact Nat.le_of_eq (Nat.zero_add _)
  | cons parent path inductionHypothesis =>
      have higher : tree.height + 1 ≤ (tree.under parent).height := by
        cases parent with
        | left value right =>
            exact Nat.succ_le_succ (Nat.le_max_left _ _)
        | right value left =>
            exact Nat.succ_le_succ (Nat.le_max_right _ _)
      have whole := inductionHypothesis (tree.under parent)
      rw [fill_cons, List.length_cons]
      omega

theorem length_inorder (tree : BinaryTree Value) :
    tree.inorder.length = tree.numNodes := by
  induction tree with
  | nil =>
      rfl
  | node value left right leftHypothesis rightHypothesis =>
      rw [inorder, List.length_append, List.length_cons, leftHypothesis,
        rightHypothesis, numNodes, Nat.add_assoc]

theorem inorder_map {Other : Type u} (function : Value → Other)
    (tree : BinaryTree Value) :
    (tree.map function).inorder = tree.inorder.map function := by
  induction tree with
  | nil =>
      rfl
  | node value left right leftHypothesis rightHypothesis =>
      rw [map, inorder, inorder, leftHypothesis, rightHypothesis,
        List.map_append, List.map_cons]

theorem height_map {Other : Type u} (function : Value → Other)
    (tree : BinaryTree Value) : (tree.map function).height = tree.height := by
  induction tree with
  | nil =>
      rfl
  | node value left right leftHypothesis rightHypothesis =>
      rw [map, height, height, leftHypothesis, rightHypothesis]

/-! ## Balance -/

section Balance

variable (balance : Value → Int)

/-- Each number is the difference in height, and that is at most one. -/
def Balanced : BinaryTree Value → Prop
  | nil => True
  | node value left right =>
      left.Balanced ∧ right.Balanced ∧
        balance value = right.height - left.height ∧
          -1 ≤ balance value ∧ balance value ≤ 1

/-- The tree around a hole is balanced once the hole is filled with a balanced
tree of this height. -/
def Hole : Nat → List (Parent Value) → Prop
  | _, [] => True
  | height, .left value right :: path =>
      right.Balanced balance ∧ balance value = right.height - height ∧
        -1 ≤ balance value ∧ balance value ≤ 1 ∧
          Hole (max height right.height + 1) path
  | height, .right value left :: path =>
      left.Balanced balance ∧ balance value = height - left.height ∧
        -1 ≤ balance value ∧ balance value ≤ 1 ∧
          Hole (max left.height height + 1) path

variable {balance} {tree : BinaryTree Value}

theorem balanced_fill {path : List (Parent Value)} :
    (tree.fill path).Balanced balance ↔
      tree.Balanced balance ∧ Hole balance tree.height path := by
  induction path generalizing tree with
  | nil =>
      exact (and_iff_left trivial).symm
  | cons parent path inductionHypothesis =>
      rw [fill_cons, inductionHypothesis]
      cases parent with
      | left value right =>
          rw [under, Balanced, Hole, height]
          tauto
      | right value left =>
          rw [under, Balanced, Hole, height]
          tauto

/-- Values with the same numbers are balanced alike. -/
theorem Balanced.map (balanced : tree.Balanced balance)
    {function : Value → Value}
    (same : ∀ value, balance (function value) = balance value) :
    (tree.map function).Balanced balance := by
  induction tree with
  | nil =>
      trivial
  | node value left right leftHypothesis rightHypothesis =>
      obtain ⟨leftBalanced, rightBalanced, numbers⟩ := balanced
      refine ⟨leftHypothesis leftBalanced, rightHypothesis rightBalanced, ?_⟩
      rw [same, height_map, height_map]
      exact numbers

/-- A balanced tree of some height has at least as many values as the smallest
one, whose numbers grow like those of Fibonacci. -/
theorem Balanced.fib_le (balanced : tree.Balanced balance) :
    Nat.fib (tree.height + 2) ≤ tree.numNodes + 1 := by
  induction tree with
  | nil =>
      exact Nat.le_refl 1
  | node value left right leftHypothesis rightHypothesis =>
      obtain ⟨leftBalanced, rightBalanced, difference, low, high⟩ := balanced
      have atLeft := leftHypothesis leftBalanced
      have atRight := rightHypothesis rightBalanced
      rw [height, numNodes]
      have grow : ∀ tall short : Nat, tall ≤ short + 1 →
          Nat.fib (tall + 1 + 2) ≤ Nat.fib (tall + 2) + Nat.fib (short + 2) := by
        intro tall short near
        rw [show tall + 1 + 2 = (tall + 1) + 2 from rfl, Nat.fib_add_two,
          Nat.add_comm]
        exact Nat.add_le_add_left (Nat.fib_mono (by omega)) _
      rcases Nat.le_total left.height right.height with lower | higher
      · rw [Nat.max_eq_right lower]
        have bound := grow right.height left.height (by omega)
        omega
      · rw [Nat.max_eq_left higher]
        have bound := grow left.height right.height (by omega)
        omega

end Balance

end BinaryTree
