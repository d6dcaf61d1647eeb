import LibubusJni.Libubox.AvlOrder
import LibubusJni.Libubox.AvlTree
import LibubusJni.Libubox.List
import Mathlib.Logic.Function.Basic

/-!
# `avl.c` with all its pointers

Beside the tree every node is in a list, which is the order of the keys.  Of the
nodes with one key only the first is in the tree, the leader.
-/

namespace LibubusJni.Libubox

open BinaryTree (Parent fill)

universe v

variable {Node : Type} {Key : Type v}

/-- `struct avl_tree`, and the field `leader` of the nodes. -/
structure AvlTree (Node : Type) where
  root : BinaryTree (AvlNode Node)
  list : List Node
  leader : Node → Bool
  count : Nat

/-- `avl_init`; no field of a node is touched. -/
def avlInit (leader : Node → Bool) : AvlTree Node where
  root := .nil
  list := []
  leader := leader
  count := 0

/-- A node of the tree with its pointers. -/
structure AvlPlace (Node : Type) where
  value : AvlNode Node
  left : BinaryTree (AvlNode Node)
  right : BinaryTree (AvlNode Node)
  path : List (Parent (AvlNode Node))

/-- The tree in which the node has this place. -/
def AvlPlace.whole (place : AvlPlace Node) : BinaryTree (AvlNode Node) :=
  fill (.node place.value place.left place.right) place.path

/-- `avl_find_rec`, and `*cmp_result`. -/
def avlFindRec (comp : Key → Key → Ordering) (keyOf : Node → Key) (key : Key) :
    BinaryTree (AvlNode Node) → List (Parent (AvlNode Node)) →
      Option (AvlPlace Node × Ordering)
  | .nil, _ => none
  | .node value left right, path =>
      match comp key (keyOf value.node) with
      | .lt =>
          match left with
          | .nil => some (⟨value, left, right, path⟩, .lt)
          | .node .. => avlFindRec comp keyOf key left (.left value right :: path)
      | .gt =>
          match right with
          | .nil => some (⟨value, left, right, path⟩, .gt)
          | .node .. => avlFindRec comp keyOf key right (.right value left :: path)
      | .eq => some (⟨value, left, right, path⟩, .eq)

/-- `avl_find`, where the tree is not empty, and its test for that. -/
def avlTreeFind (comp : Key → Key → Ordering) (keyOf : Node → Key) (key : Key)
    (tree : AvlTree Node) : Option Node := do
  let (place, diff) ← avlFindRec comp keyOf key tree.root []
  if diff = .eq then some place.value.node else none

/-- A new node, as `avl_insert` begins. -/
def avlLeaf (new : Node) : BinaryTree (AvlNode Node) :=
  .node ⟨new, 0⟩ .nil .nil

variable [DecidableEq Node]

/-- What is behind a node in the list. -/
def avlBehind (node : Node) (list : List Node) : List Node :=
  (list.dropWhile (· ≠ node)).tail

/-- `avl_insert_before`. -/
def avlInsertBefore (pos node : Node) (list : List Node) : List Node :=
  list.takeWhile (· ≠ pos) ++ node :: list.dropWhile (· ≠ pos)

/-- `avl_insert_after`. -/
def avlInsertAfter (pos node : Node) (list : List Node) : List Node :=
  list.takeWhile (· ≠ pos) ++ pos :: node :: avlBehind pos list

/-- The last of the nodes with one key, from one of them on. -/
def avlLast (leader : Node → Bool) (last : Node) : List Node → Node
  | [] => last
  | next :: rest => if leader next then last else avlLast leader next rest

/-- `avl_insert` with its result. -/
def avlTreeInsert (comp : Key → Key → Ordering) (keyOf : Node → Key)
    (allowDups : Bool) (new : Node) (tree : AvlTree Node) :
    Option (Int × AvlTree Node) :=
  let leader := Function.update tree.leader new true
  match tree.root with
  | .nil => some (0, ⟨avlLeaf new, listAdd new tree.list, leader, 1⟩)
  | root => do
      let (place, _) ← avlFindRec comp keyOf (keyOf new) root []
      let node := place.value.node
      let last := avlLast leader node (avlBehind node tree.list)
      let diff := comp (keyOf new) (keyOf node)
      if diff = .eq then
        if !allowDups then some (-1, { tree with leader := leader })
        else
          some (0, { tree with
            list := avlInsertAfter last new tree.list
            leader := Function.update leader new false
            count := tree.count + 1 })
      else if place.value.balance = 1 then
        some (0, {
          root := fill (.node ⟨node, 0⟩ (avlLeaf new) place.right) place.path
          list := avlInsertBefore node new tree.list
          leader := leader
          count := tree.count + 1 })
      else if place.value.balance = -1 then
        some (0, {
          root := fill (.node ⟨node, 0⟩ place.left (avlLeaf new)) place.path
          list := avlInsertAfter last new tree.list
          leader := leader
          count := tree.count + 1 })
      else if diff = .lt then
        let root ← postInsert (.node ⟨node, -1⟩ (avlLeaf new) place.right) place.path
        some (0, {
          root := root
          list := avlInsertBefore node new tree.list
          leader := leader
          count := tree.count + 1 })
      else
        let root ← postInsert (.node ⟨node, 1⟩ place.left (avlLeaf new)) place.path
        some (0, {
          root := root
          list := avlInsertAfter last new tree.list
          leader := leader
          count := tree.count + 1 })

/-- Where the pointers of a node are. -/
def avlPlace (node : Node) :
    BinaryTree (AvlNode Node) → List (Parent (AvlNode Node)) →
      Option (AvlPlace Node)
  | .nil, _ => none
  | .node value left right, path =>
      if value.node = node then some ⟨value, left, right, path⟩
      else
        (avlPlace node left (.left value right :: path)).or
          (avlPlace node right (.right value left :: path))

/-- The test of `avl_delete`: the next node, where it has the same key. -/
def avlHeir (allowDups : Bool) (node : Node) (tree : AvlTree Node) :
    Option Node :=
  match avlBehind node tree.list with
  | [] => none
  | next :: _ => if allowDups && !tree.leader next then some next else none

/-- What `avl_delete` does to the tree before it takes the node out of the
list. -/
def avlTreeRemove (allowDups : Bool) (node : Node) (tree : AvlTree Node) :
    Option (AvlTree Node) :=
  if tree.leader node then
    match avlHeir allowDups node tree with
    | some next =>
        some { tree with
          root := tree.root.map (avlReplace node next)
          leader := Function.update tree.leader next true }
    | none => do
        let place ← avlPlace node tree.root []
        let root ←
          avlDeleteWorker place.value place.left place.right place.path
        some { tree with root := root }
  else some tree

/-- `avl_delete`. -/
def avlTreeDelete (allowDups : Bool) (node : Node) (tree : AvlTree Node) :
    Option (AvlTree Node) := do
  let tree ← avlTreeRemove allowDups node tree
  some { tree with
    list := listDel node tree.list
    count := tree.count - 1 }

end LibubusJni.Libubox
