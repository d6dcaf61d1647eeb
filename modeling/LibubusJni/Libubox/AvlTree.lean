import LibubusJni.Lib.Tree

/-!
# How `avl.c` balances

The pointers `left`, `right` and `parent` of the nodes are a tree and the way
from one of its subtrees up to the root.  A function that would follow a null
pointer has no result.
-/

namespace LibubusJni.Libubox

open BinaryTree (Parent fill)

variable {Node : Type}

/-- `struct avl_node`, of which only the balance belongs to the tree. -/
structure AvlNode (Node : Type) where
  node : Node
  balance : Int
  deriving DecidableEq, Repr

/-- The nodes in the order of the tree. -/
def avlNodes (tree : BinaryTree (AvlNode Node)) : List Node :=
  tree.inorder.map AvlNode.node

/-- `node->balance`. -/
def avlBalance : BinaryTree (AvlNode Node) → Option Int
  | .nil => none
  | .node value _ _ => some value.balance

/-- `avl_rotate_right`. -/
def avlRotateRight :
    BinaryTree (AvlNode Node) → Option (BinaryTree (AvlNode Node))
  | .node node (.node left leftLeft leftRight) right =>
      let nodeBalance := node.balance + (1 - min left.balance 0)
      let leftBalance := left.balance + (1 + max nodeBalance 0)
      some (.node { left with balance := leftBalance } leftLeft
        (.node { node with balance := nodeBalance } leftRight right))
  | _ => none

/-- `avl_rotate_left`. -/
def avlRotateLeft :
    BinaryTree (AvlNode Node) → Option (BinaryTree (AvlNode Node))
  | .node node left (.node right rightLeft rightRight) =>
      let nodeBalance := node.balance - (1 + max right.balance 0)
      let rightBalance := right.balance - (1 - min nodeBalance 0)
      some (.node { right with balance := rightBalance }
        (.node { node with balance := nodeBalance } left rightLeft) rightRight)
  | _ => none

/-- `post_insert`: the subtree has become higher by one. -/
def postInsert (tree : BinaryTree (AvlNode Node)) :
    List (Parent (AvlNode Node)) → Option (BinaryTree (AvlNode Node))
  | [] => some tree
  | .left value right :: path => do
      let parent := { value with balance := value.balance - 1 }
      if parent.balance = 0 then some (fill (.node parent tree right) path)
      else if parent.balance = -1 then postInsert (.node parent tree right) path
      else if (← avlBalance tree) = -1 then
        let top ← avlRotateRight (.node parent tree right)
        some (fill top path)
      else
        let turned ← avlRotateLeft tree
        let top ← avlRotateRight (.node parent turned right)
        some (fill top path)
  | .right value left :: path => do
      let parent := { value with balance := value.balance + 1 }
      if parent.balance = 0 then some (fill (.node parent left tree) path)
      else if parent.balance = 1 then postInsert (.node parent left tree) path
      else if (← avlBalance tree) = 1 then
        let top ← avlRotateLeft (.node parent left tree)
        some (fill top path)
      else
        let turned ← avlRotateRight tree
        let top ← avlRotateLeft (.node parent left turned)
        some (fill top path)

/-- The last three cases of a deletion to the left of `parent`: the subtree
there, and whether it has become lower. -/
def avlLiftRight (parent : AvlNode Node) (left right : BinaryTree (AvlNode Node)) :
    Option (BinaryTree (AvlNode Node) × Bool) := do
  let rightBalance ← avlBalance right
  if rightBalance = 0 then
    let top ← avlRotateLeft (.node parent left right)
    some (top, false)
  else if rightBalance = 1 then
    let top ← avlRotateLeft (.node parent left right)
    some (top, true)
  else
    let turned ← avlRotateRight right
    let top ← avlRotateLeft (.node parent left turned)
    some (top, true)

/-- The last three cases of a deletion to the right of `parent`. -/
def avlLiftLeft (parent : AvlNode Node) (left right : BinaryTree (AvlNode Node)) :
    Option (BinaryTree (AvlNode Node) × Bool) := do
  let leftBalance ← avlBalance left
  if leftBalance = 0 then
    let top ← avlRotateRight (.node parent left right)
    some (top, false)
  else if leftBalance = -1 then
    let top ← avlRotateRight (.node parent left right)
    some (top, true)
  else
    let turned ← avlRotateLeft left
    let top ← avlRotateRight (.node parent turned right)
    some (top, true)

/-- `avl_post_delete`: the subtree has become lower by one. -/
def avlPostDelete (tree : BinaryTree (AvlNode Node)) :
    List (Parent (AvlNode Node)) → Option (BinaryTree (AvlNode Node))
  | [] => some tree
  | .left value right :: path => do
      let parent := { value with balance := value.balance + 1 }
      if parent.balance = 0 then avlPostDelete (.node parent tree right) path
      else if parent.balance = 1 then some (fill (.node parent tree right) path)
      else
        let (top, lower) ← avlLiftRight parent tree right
        if lower then avlPostDelete top path else some (fill top path)
  | .right value left :: path => do
      let parent := { value with balance := value.balance - 1 }
      if parent.balance = 0 then avlPostDelete (.node parent left tree) path
      else if parent.balance = -1 then some (fill (.node parent left tree) path)
      else
        let (top, lower) ← avlLiftLeft parent left tree
        if lower then avlPostDelete top path else some (fill top path)

/-- The first case of `avl_delete_worker`: a node without children. -/
def avlDeleteLeaf :
    List (Parent (AvlNode Node)) → Option (BinaryTree (AvlNode Node))
  | [] => some .nil
  | .left value right :: path => do
      let parent := { value with balance := value.balance + 1 }
      if parent.balance = 1 then some (fill (.node parent .nil right) path)
      else if parent.balance = 0 then avlPostDelete (.node parent .nil right) path
      else
        let (top, lower) ← avlLiftRight parent .nil right
        if lower then avlPostDelete top path else some (fill top path)
  | .right value left :: path => do
      let parent := { value with balance := value.balance - 1 }
      if parent.balance = -1 then some (fill (.node parent left .nil) path)
      else if parent.balance = 0 then avlPostDelete (.node parent left .nil) path
      else
        let (top, lower) ← avlLiftLeft parent left .nil
        if lower then avlPostDelete top path else some (fill top path)

/-- The cases of `avl_delete_worker` where a child is null. -/
def avlDeleteChild (left right : BinaryTree (AvlNode Node))
    (path : List (Parent (AvlNode Node))) :
    Option (BinaryTree (AvlNode Node)) :=
  match left, right with
  | .nil, .nil => avlDeleteLeaf path
  -- Without a parent `avl_post_delete` returns at once.
  | .nil, right => avlPostDelete right path
  | left, _ => avlPostDelete left path

/-- `avl_local_min` of the tree at a node: the way up from there and what is to
the right of it. -/
def avlLocalMin (value : AvlNode Node) (left right : BinaryTree (AvlNode Node))
    (path : List (Parent (AvlNode Node))) :
    AvlNode Node × BinaryTree (AvlNode Node) × List (Parent (AvlNode Node)) :=
  match left with
  | .nil => (value, right, path)
  | .node below leftLeft leftRight =>
      avlLocalMin below leftLeft leftRight (.left value right :: path)

/-- `min` takes the place of `node`, with its balance. -/
def avlReplace [DecidableEq Node] (node min : Node) (value : AvlNode Node) :
    AvlNode Node :=
  if value.node = node then { value with node := min } else value

/-- `avl_delete_worker` for the node with these subtrees. -/
def avlDeleteWorker [DecidableEq Node] (value : AvlNode Node)
    (left right : BinaryTree (AvlNode Node))
    (path : List (Parent (AvlNode Node))) :
    Option (BinaryTree (AvlNode Node)) :=
  match left, right with
  | .node .., .node below rightLeft rightRight => do
      let (min, minRight, minPath) :=
        avlLocalMin below rightLeft rightRight (.right value left :: path)
      let root ← avlDeleteChild .nil minRight minPath
      some (root.map (avlReplace value.node min.node))
  | _, _ => avlDeleteChild left right path

/-! ## Rotations -/

@[simp]
theorem avlNodes_nil : avlNodes (.nil : BinaryTree (AvlNode Node)) = [] := rfl

@[simp]
theorem avlNodes_node {value : AvlNode Node}
    {left right : BinaryTree (AvlNode Node)} :
    avlNodes (.node value left right) =
      avlNodes left ++ value.node :: avlNodes right := by
  rw [avlNodes, BinaryTree.inorder, List.map_append, List.map_cons]
  rfl

/-- A tree that is balanced, with these nodes and of this height. -/
structure AvlSubtree (tree : BinaryTree (AvlNode Node)) (nodes : List Node)
    (height : Nat) : Prop where
  balanced : tree.Balanced AvlNode.balance
  nodes : avlNodes tree = nodes
  height : tree.height = height

section Rotations

variable {value : AvlNode Node} {left right : BinaryTree (AvlNode Node)}

/-- The subtree to the left is higher by two: one rotation is enough where it
does not tilt to the right. -/
theorem avl_higherLeft (isTwo : value.balance = -2)
    (leftBalanced : left.Balanced AvlNode.balance)
    (rightBalanced : right.Balanced AvlNode.balance)
    (higher : left.height = right.height + 2) :
    ∃ balance, avlBalance left = some balance ∧ -1 ≤ balance ∧ balance ≤ 1 ∧
      (balance ≠ 1 → ∃ top,
        avlRotateRight (.node value left right) = some top ∧
          AvlSubtree top (avlNodes left ++ value.node :: avlNodes right)
            (left.height + if balance = 0 then 1 else 0)) ∧
      (balance = 1 → ∃ turned top, avlRotateLeft left = some turned ∧
        avlRotateRight (.node value turned right) = some top ∧
          AvlSubtree top (avlNodes left ++ value.node :: avlNodes right)
            left.height) := by
  obtain ⟨node, balance⟩ := value
  cases left with
  | nil =>
      exact absurd higher (by rw [BinaryTree.height]; omega)
  | node below first second =>
      obtain ⟨below, belowBalance⟩ := below
      obtain ⟨firstBalanced, secondBalanced, isBalance, low, high⟩ := leftBalanced
      rw [BinaryTree.height] at higher ⊢
      simp only at isTwo isBalance low high
      refine ⟨belowBalance, rfl, low, high, fun noLean => ?_, fun leans => ?_⟩
      · refine ⟨_, rfl, ⟨?_, ?_, ?_⟩⟩
        · simp only [BinaryTree.Balanced, BinaryTree.height]
          refine ⟨firstBalanced, ⟨secondBalanced, rightBalanced, ?_⟩, ?_⟩
          all_goals omega
        · simp
        · simp only [BinaryTree.height]
          split
          all_goals omega
      · cases second with
        | nil =>
            rw [BinaryTree.height] at isBalance
            omega
        | node middle third fourth =>
            obtain ⟨middle, middleBalance⟩ := middle
            obtain ⟨thirdBalanced, fourthBalanced, isMiddle, middleLow,
              middleHigh⟩ := secondBalanced
            simp only [BinaryTree.height] at isBalance isMiddle higher
            simp only at middleLow middleHigh
            refine ⟨_, _, rfl, rfl, ⟨?_, ?_, ?_⟩⟩
            · simp only [BinaryTree.Balanced, BinaryTree.height]
              refine ⟨⟨firstBalanced, thirdBalanced, ?_⟩,
                ⟨fourthBalanced, rightBalanced, ?_⟩, ?_⟩
              all_goals omega
            · simp
            · simp only [BinaryTree.height]
              omega

/-- The subtree to the right is higher by two. -/
theorem avl_higherRight (isTwo : value.balance = 2)
    (leftBalanced : left.Balanced AvlNode.balance)
    (rightBalanced : right.Balanced AvlNode.balance)
    (higher : right.height = left.height + 2) :
    ∃ balance, avlBalance right = some balance ∧ -1 ≤ balance ∧ balance ≤ 1 ∧
      (balance ≠ -1 → ∃ top,
        avlRotateLeft (.node value left right) = some top ∧
          AvlSubtree top (avlNodes left ++ value.node :: avlNodes right)
            (right.height + if balance = 0 then 1 else 0)) ∧
      (balance = -1 → ∃ turned top, avlRotateRight right = some turned ∧
        avlRotateLeft (.node value left turned) = some top ∧
          AvlSubtree top (avlNodes left ++ value.node :: avlNodes right)
            right.height) := by
  obtain ⟨node, balance⟩ := value
  cases right with
  | nil =>
      exact absurd higher (by rw [BinaryTree.height]; omega)
  | node below first second =>
      obtain ⟨below, belowBalance⟩ := below
      obtain ⟨firstBalanced, secondBalanced, isBalance, low, high⟩ := rightBalanced
      rw [BinaryTree.height] at higher ⊢
      simp only at isTwo isBalance low high
      refine ⟨belowBalance, rfl, low, high, fun noLean => ?_, fun leans => ?_⟩
      · refine ⟨_, rfl, ⟨?_, ?_, ?_⟩⟩
        · simp only [BinaryTree.Balanced, BinaryTree.height]
          refine ⟨⟨leftBalanced, firstBalanced, ?_⟩, secondBalanced, ?_⟩
          all_goals omega
        · simp
        · simp only [BinaryTree.height]
          split
          all_goals omega
      · cases first with
        | nil =>
            rw [BinaryTree.height] at isBalance
            omega
        | node middle third fourth =>
            obtain ⟨middle, middleBalance⟩ := middle
            obtain ⟨thirdBalanced, fourthBalanced, isMiddle, middleLow,
              middleHigh⟩ := firstBalanced
            simp only [BinaryTree.height] at isBalance isMiddle higher
            simp only at middleLow middleHigh
            refine ⟨_, _, rfl, rfl, ⟨?_, ?_, ?_⟩⟩
            · simp only [BinaryTree.Balanced, BinaryTree.height]
              refine ⟨⟨leftBalanced, thirdBalanced, ?_⟩,
                ⟨fourthBalanced, secondBalanced, ?_⟩, ?_⟩
              all_goals omega
            · simp
            · simp only [BinaryTree.height]
              omega

theorem avlLiftLeft_eq (isTwo : value.balance = -2)
    (leftBalanced : left.Balanced AvlNode.balance)
    (rightBalanced : right.Balanced AvlNode.balance)
    (higher : left.height = right.height + 2) :
    ∃ top lower, avlLiftLeft value left right = some (top, lower) ∧
      AvlSubtree top (avlNodes left ++ value.node :: avlNodes right)
        (left.height + if lower then 0 else 1) := by
  obtain ⟨balance, isBalance, low, high, single, double⟩ :=
    avl_higherLeft isTwo leftBalanced rightBalanced higher
  by_cases even : balance = 0
  · obtain ⟨top, rotated, subtree⟩ := single (by omega)
    rw [if_pos even] at subtree
    exact ⟨top, false, by simp [avlLiftLeft, isBalance, even, rotated], subtree⟩
  · by_cases leans : balance = -1
    · obtain ⟨top, rotated, subtree⟩ := single (by omega)
      rw [if_neg even] at subtree
      exact ⟨top, true, by simp [avlLiftLeft, isBalance, leans, rotated], subtree⟩
    · obtain ⟨turned, top, turning, rotated, subtree⟩ := double (by omega)
      exact ⟨top, true,
        by simp [avlLiftLeft, isBalance, even, leans, turning, rotated], subtree⟩

theorem avlLiftRight_eq (isTwo : value.balance = 2)
    (leftBalanced : left.Balanced AvlNode.balance)
    (rightBalanced : right.Balanced AvlNode.balance)
    (higher : right.height = left.height + 2) :
    ∃ top lower, avlLiftRight value left right = some (top, lower) ∧
      AvlSubtree top (avlNodes left ++ value.node :: avlNodes right)
        (right.height + if lower then 0 else 1) := by
  obtain ⟨balance, isBalance, low, high, single, double⟩ :=
    avl_higherRight isTwo leftBalanced rightBalanced higher
  by_cases even : balance = 0
  · obtain ⟨top, rotated, subtree⟩ := single (by omega)
    rw [if_pos even] at subtree
    exact ⟨top, false, by simp [avlLiftRight, isBalance, even, rotated], subtree⟩
  · by_cases leans : balance = 1
    · obtain ⟨top, rotated, subtree⟩ := single (by omega)
      rw [if_neg even] at subtree
      exact ⟨top, true, by simp [avlLiftRight, isBalance, leans, rotated],
        subtree⟩
    · obtain ⟨turned, top, turning, rotated, subtree⟩ := double (by omega)
      exact ⟨top, true,
        by simp [avlLiftRight, isBalance, even, leans, turning, rotated], subtree⟩

end Rotations

/-! ## The way up to the root -/

/-- The nodes of a tree around these nodes. -/
def avlAround (path : List (Parent (AvlNode Node))) (nodes : List Node) :
    List Node :=
  (BinaryTree.before path).map AvlNode.node ++
    (nodes ++ (BinaryTree.behind path).map AvlNode.node)

@[simp]
theorem avlAround_nil {nodes : List Node} : avlAround [] nodes = nodes :=
  List.append_nil nodes

@[simp]
theorem avlAround_left {value : AvlNode Node} {right : BinaryTree (AvlNode Node)}
    {path : List (Parent (AvlNode Node))} {nodes : List Node} :
    avlAround (.left value right :: path) nodes =
      avlAround path (nodes ++ value.node :: avlNodes right) := by
  simp [avlAround, avlNodes, BinaryTree.before, BinaryTree.behind]

@[simp]
theorem avlAround_right {value : AvlNode Node} {left : BinaryTree (AvlNode Node)}
    {path : List (Parent (AvlNode Node))} {nodes : List Node} :
    avlAround (.right value left :: path) nodes =
      avlAround path (avlNodes left ++ value.node :: nodes) := by
  simp [avlAround, avlNodes, BinaryTree.before, BinaryTree.behind]

theorem avlAround_append {path : List (Parent (AvlNode Node))}
    {front rest : List Node} :
    avlAround path (front ++ rest) =
      ((BinaryTree.before path).map AvlNode.node ++ front) ++
        (rest ++ (BinaryTree.behind path).map AvlNode.node) := by
  simp [avlAround]

theorem avlNodes_fill {tree : BinaryTree (AvlNode Node)}
    {path : List (Parent (AvlNode Node))} :
    avlNodes (fill tree path) = avlAround path (avlNodes tree) := by
  rw [avlNodes, BinaryTree.inorder_fill, List.map_append, List.map_append]
  rfl

/-- A balanced tree with these nodes. -/
def AvlRoot (root : Option (BinaryTree (AvlNode Node))) (nodes : List Node) :
    Prop :=
  ∃ tree, root = some tree ∧ tree.Balanced AvlNode.balance ∧
    avlNodes tree = nodes

section Path

variable {tree left right : BinaryTree (AvlNode Node)} {value : AvlNode Node}
  {path : List (Parent (AvlNode Node))} {nodes : List Node} {height : Nat}

theorem AvlSubtree.filled (subtree : AvlSubtree tree nodes height)
    (hole : BinaryTree.Hole AvlNode.balance height path) :
    AvlRoot (some (fill tree path)) (avlAround path nodes) := by
  refine ⟨_, rfl, BinaryTree.balanced_fill.mpr ⟨subtree.balanced, ?_⟩, ?_⟩
  · rw [subtree.height]
    exact hole
  · rw [avlNodes_fill, subtree.nodes]

theorem AvlSubtree.node {node : Node} {balance : Int}
    (leftBalanced : left.Balanced AvlNode.balance)
    (rightBalanced : right.Balanced AvlNode.balance)
    (level : balance = right.height - left.height)
    (low : -1 ≤ balance) (high : balance ≤ 1) :
    AvlSubtree (.node ⟨node, balance⟩ left right)
      (avlNodes left ++ node :: avlNodes right)
      (max left.height right.height + 1) :=
  ⟨⟨leftBalanced, rightBalanced, level, low, high⟩, avlNodes_node, rfl⟩

/-- What `post_insert` leaves of a parent: a subtree of the height it had, or one
that leans and is higher by one. -/
def AvlGrown (height : Nat) (nodes : List Node)
    (path : List (Parent (AvlNode Node)))
    (result : Option (BinaryTree (AvlNode Node))) : Prop :=
  ∃ top, (AvlSubtree top nodes height ∧ result = some (fill top path)) ∨
    (AvlSubtree top nodes (height + 1) ∧ avlBalance top ≠ some 0 ∧
      result = postInsert top path)

theorem postInsert_left (balanced : tree.Balanced AvlNode.balance)
    (leans : avlBalance tree ≠ some 0) (grown : tree.height = height + 1)
    (rightBalanced : right.Balanced AvlNode.balance)
    (level : value.balance = right.height - height)
    (low : -1 ≤ value.balance) (high : value.balance ≤ 1) :
    AvlGrown (max height right.height + 1)
      (avlNodes tree ++ value.node :: avlNodes right) path
      (postInsert tree (.left value right :: path)) := by
  obtain ⟨parent, balance⟩ := value
  simp only at level low high
  by_cases even : balance - 1 = 0
  · refine ⟨_, .inl ⟨?_, by simp only [postInsert, even, ↓reduceIte]; rfl⟩⟩
    rw [show max height right.height = max tree.height right.height by omega]
    apply AvlSubtree.node balanced rightBalanced
    all_goals omega
  by_cases higher : balance - 1 = -1
  · refine ⟨_, .inr ⟨?_, ?_, by simp only [postInsert, higher, ↓reduceIte]; rfl⟩⟩
    · rw [show max height right.height + 1 = max tree.height right.height by
        omega]
      apply AvlSubtree.node balanced rightBalanced
      all_goals omega
    · intro isEven
      have zero : (-1 : Int) = 0 := Option.some.inj isEven
      omega
  have isTwo : balance - 1 = -2 := by omega
  obtain ⟨tilt, isTilt, _, _, single, double⟩ :=
    @avl_higherLeft _ ⟨parent, balance - 1⟩ _ _ isTwo balanced rightBalanced
      (by omega)
  have uneven : tilt ≠ 0 := fun isEven => leans (isTilt.trans (by rw [isEven]))
  rw [show max height right.height + 1 = tree.height by omega]
  by_cases leansLeft : tilt = -1
  · obtain ⟨top, rotated, subtree⟩ := single (by omega)
    refine ⟨top, .inl ⟨?_, ?_⟩⟩
    · rwa [if_neg (by omega)] at subtree
    · simp [postInsert, even, higher, isTilt, leansLeft, rotated]
  · obtain ⟨turned, top, turning, rotated, subtree⟩ := double (by omega)
    refine ⟨top, .inl ⟨subtree, ?_⟩⟩
    simp [postInsert, even, higher, isTilt, leansLeft, turning, rotated]

theorem postInsert_right (balanced : tree.Balanced AvlNode.balance)
    (leans : avlBalance tree ≠ some 0) (grown : tree.height = height + 1)
    (leftBalanced : left.Balanced AvlNode.balance)
    (level : value.balance = height - left.height)
    (low : -1 ≤ value.balance) (high : value.balance ≤ 1) :
    AvlGrown (max left.height height + 1)
      (avlNodes left ++ value.node :: avlNodes tree) path
      (postInsert tree (.right value left :: path)) := by
  obtain ⟨parent, balance⟩ := value
  simp only at level low high
  by_cases even : balance + 1 = 0
  · refine ⟨_, .inl ⟨?_, by simp only [postInsert, even, ↓reduceIte]; rfl⟩⟩
    rw [show max left.height height = max left.height tree.height by omega]
    apply AvlSubtree.node leftBalanced balanced
    all_goals omega
  by_cases higher : balance + 1 = 1
  · refine ⟨_, .inr ⟨?_, ?_, by simp only [postInsert, higher, ↓reduceIte]; rfl⟩⟩
    · rw [show max left.height height + 1 = max left.height tree.height by omega]
      apply AvlSubtree.node leftBalanced balanced
      all_goals omega
    · intro isEven
      have zero : (1 : Int) = 0 := Option.some.inj isEven
      omega
  have isTwo : balance + 1 = 2 := by omega
  obtain ⟨tilt, isTilt, _, _, single, double⟩ :=
    @avl_higherRight _ ⟨parent, balance + 1⟩ _ _ isTwo leftBalanced balanced
      (by omega)
  have uneven : tilt ≠ 0 := fun isEven => leans (isTilt.trans (by rw [isEven]))
  rw [show max left.height height + 1 = tree.height by omega]
  by_cases leansRight : tilt = 1
  · obtain ⟨top, rotated, subtree⟩ := single (by omega)
    refine ⟨top, .inl ⟨?_, ?_⟩⟩
    · rwa [if_neg (by omega)] at subtree
    · simp [postInsert, even, higher, isTilt, leansRight, rotated]
  · obtain ⟨turned, top, turning, rotated, subtree⟩ := double (by omega)
    refine ⟨top, .inl ⟨subtree, ?_⟩⟩
    simp [postInsert, even, higher, isTilt, leansRight, turning, rotated]

/-- A subtree that leans and has become higher by one is put back into
balance. -/
theorem postInsert_eq (subtree : AvlSubtree tree nodes (height + 1))
    (leans : avlBalance tree ≠ some 0)
    (hole : BinaryTree.Hole AvlNode.balance height path) :
    AvlRoot (postInsert tree path) (avlAround path nodes) := by
  induction path generalizing tree nodes height with
  | nil =>
      exact ⟨tree, rfl, subtree.balanced, subtree.nodes.trans avlAround_nil.symm⟩
  | cons parent path inductionHypothesis =>
      have climb : ∀ {before : Nat} {around : List Node},
          BinaryTree.Hole AvlNode.balance before path →
            AvlGrown before around path (postInsert tree (parent :: path)) →
              AvlRoot (postInsert tree (parent :: path))
                (avlAround path around) := by
        rintro before around above ⟨top, ⟨done, same⟩ | ⟨rest, tilt, same⟩⟩
        · rw [same]
          exact done.filled above
        · rw [same]
          exact inductionHypothesis rest tilt above
      rw [← subtree.nodes]
      cases parent with
      | left value right =>
          obtain ⟨rightBalanced, level, low, high, above⟩ := hole
          rw [avlAround_left]
          exact climb above (postInsert_left subtree.balanced leans
            subtree.height rightBalanced level low high)
      | right value left =>
          obtain ⟨leftBalanced, level, low, high, above⟩ := hole
          rw [avlAround_right]
          exact climb above (postInsert_right subtree.balanced leans
            subtree.height leftBalanced level low high)

/-- What `avl_post_delete` leaves of a parent: a subtree of the height it had, or
one that is lower by one. -/
def AvlShrunk (height : Nat) (nodes : List Node)
    (path : List (Parent (AvlNode Node)))
    (result : Option (BinaryTree (AvlNode Node))) : Prop :=
  ∃ top, (AvlSubtree top nodes (height + 1) ∧ result = some (fill top path)) ∨
    (AvlSubtree top nodes height ∧ result = avlPostDelete top path)

theorem avlPostDelete_left (balanced : tree.Balanced AvlNode.balance)
    (rightBalanced : right.Balanced AvlNode.balance)
    (level : value.balance = right.height - (tree.height + 1))
    (low : -1 ≤ value.balance) (high : value.balance ≤ 1) :
    AvlShrunk (max (tree.height + 1) right.height)
      (avlNodes tree ++ value.node :: avlNodes right) path
      (avlPostDelete tree (.left value right :: path)) := by
  obtain ⟨parent, balance⟩ := value
  simp only at level low high
  by_cases lower : balance + 1 = 0
  · refine ⟨_, .inr ⟨?_, by simp only [avlPostDelete, lower, ↓reduceIte]; rfl⟩⟩
    rw [show max (tree.height + 1) right.height =
      max tree.height right.height + 1 by omega]
    apply AvlSubtree.node balanced rightBalanced
    all_goals omega
  by_cases same : balance + 1 = 1
  · refine ⟨_, .inl ⟨?_, by simp only [avlPostDelete, same, ↓reduceIte]; rfl⟩⟩
    rw [show max (tree.height + 1) right.height =
      max tree.height right.height by omega]
    apply AvlSubtree.node balanced rightBalanced
    all_goals omega
  have isTwo : balance + 1 = 2 := by omega
  obtain ⟨top, lowered, lifted, subtree⟩ :=
    @avlLiftRight_eq _ ⟨parent, balance + 1⟩ _ _ isTwo balanced rightBalanced
      (by omega)
  rw [show max (tree.height + 1) right.height = right.height by omega]
  refine ⟨top, ?_⟩
  cases lowered with
  | false =>
      exact .inl ⟨subtree, by simp [avlPostDelete, lower, same, lifted]⟩
  | true =>
      exact .inr ⟨subtree, by simp [avlPostDelete, lower, same, lifted]⟩

theorem avlPostDelete_right (balanced : tree.Balanced AvlNode.balance)
    (leftBalanced : left.Balanced AvlNode.balance)
    (level : value.balance = (tree.height + 1) - left.height)
    (low : -1 ≤ value.balance) (high : value.balance ≤ 1) :
    AvlShrunk (max left.height (tree.height + 1))
      (avlNodes left ++ value.node :: avlNodes tree) path
      (avlPostDelete tree (.right value left :: path)) := by
  obtain ⟨parent, balance⟩ := value
  simp only at level low high
  by_cases lower : balance - 1 = 0
  · refine ⟨_, .inr ⟨?_, by simp only [avlPostDelete, lower, ↓reduceIte]; rfl⟩⟩
    rw [show max left.height (tree.height + 1) =
      max left.height tree.height + 1 by omega]
    apply AvlSubtree.node leftBalanced balanced
    all_goals omega
  by_cases same : balance - 1 = -1
  · refine ⟨_, .inl ⟨?_, by simp only [avlPostDelete, same, ↓reduceIte]; rfl⟩⟩
    rw [show max left.height (tree.height + 1) =
      max left.height tree.height by omega]
    apply AvlSubtree.node leftBalanced balanced
    all_goals omega
  have isTwo : balance - 1 = -2 := by omega
  obtain ⟨top, lowered, lifted, subtree⟩ :=
    @avlLiftLeft_eq _ ⟨parent, balance - 1⟩ _ _ isTwo leftBalanced balanced
      (by omega)
  rw [show max left.height (tree.height + 1) = left.height by omega]
  refine ⟨top, ?_⟩
  cases lowered with
  | false =>
      exact .inl ⟨subtree, by simp [avlPostDelete, lower, same, lifted]⟩
  | true =>
      exact .inr ⟨subtree, by simp [avlPostDelete, lower, same, lifted]⟩

/-- A subtree that has become lower by one is put back into balance. -/
theorem avlPostDelete_eq (subtree : AvlSubtree tree nodes height)
    (hole : BinaryTree.Hole AvlNode.balance (height + 1) path) :
    AvlRoot (avlPostDelete tree path) (avlAround path nodes) := by
  induction path generalizing tree nodes height with
  | nil =>
      exact ⟨tree, rfl, subtree.balanced, subtree.nodes.trans avlAround_nil.symm⟩
  | cons parent path inductionHypothesis =>
      have climb : ∀ {before : Nat} {around : List Node},
          BinaryTree.Hole AvlNode.balance (before + 1) path →
            AvlShrunk before around path (avlPostDelete tree (parent :: path)) →
              AvlRoot (avlPostDelete tree (parent :: path))
                (avlAround path around) := by
        rintro before around above ⟨top, ⟨done, same⟩ | ⟨rest, same⟩⟩
        · rw [same]
          exact done.filled above
        · rw [same]
          exact inductionHypothesis rest above
      rw [← subtree.nodes]
      cases parent with
      | left value right =>
          obtain ⟨rightBalanced, level, low, high, above⟩ := hole
          rw [← subtree.height] at level above
          rw [avlAround_left]
          exact climb above (avlPostDelete_left subtree.balanced rightBalanced
            level low high)
      | right value left =>
          obtain ⟨leftBalanced, level, low, high, above⟩ := hole
          rw [← subtree.height] at level above
          rw [avlAround_right]
          exact climb above (avlPostDelete_right subtree.balanced leftBalanced
            level low high)

/-- The first case of `avl_delete_worker` asks in another order. -/
theorem avlDeleteLeaf_eq : avlDeleteLeaf path = avlPostDelete .nil path := by
  cases path with
  | nil =>
      rfl
  | cons parent path =>
      cases parent with
      | left value right =>
          rw [avlDeleteLeaf, avlPostDelete]
          by_cases lower : value.balance + 1 = 0
          · simp [lower]
          · simp [lower]
      | right value left =>
          rw [avlDeleteLeaf, avlPostDelete]
          by_cases lower : value.balance - 1 = 0
          · simp [lower]
          · simp [lower]

theorem avlDeleteChild_nil_left :
    avlDeleteChild .nil tree path = avlPostDelete tree path := by
  cases tree with
  | nil =>
      exact avlDeleteLeaf_eq
  | node value left right =>
      rfl

theorem avlDeleteChild_nil_right :
    avlDeleteChild tree .nil path = avlPostDelete tree path := by
  cases tree with
  | nil =>
      exact avlDeleteLeaf_eq
  | node value left right =>
      rfl

/-- The node that `avl_local_min` finds is the first one of the tree. -/
theorem avlLocalMin_eq {min : AvlNode Node} {minRight : BinaryTree (AvlNode Node)}
    {minPath : List (Parent (AvlNode Node))}
    (found : avlLocalMin value left right path = (min, minRight, minPath)) :
    fill (.node min .nil minRight) minPath = fill (.node value left right) path ∧
      ∃ rest, avlNodes (.node value left right) = min.node :: rest ∧
        avlAround minPath (avlNodes minRight) = avlAround path rest := by
  induction left generalizing value right path with
  | nil =>
      cases found
      exact ⟨rfl, avlNodes minRight, avlNodes_node, rfl⟩
  | node below leftLeft leftRight leftHypothesis =>
      rw [avlLocalMin] at found
      obtain ⟨same, rest, isFirst, around⟩ := leftHypothesis found
      refine ⟨same, rest ++ value.node :: avlNodes right, ?_, ?_⟩
      · rw [avlNodes_node, isFirst]
        rfl
      · rw [around, avlAround_left]

theorem map_avlReplace [DecidableEq Node] {node min : Node} {front rest : List Node}
    (nodup : (front ++ node :: rest).Nodup) :
    (front ++ node :: rest).map (fun other => if other = node then min else other) =
      front ++ min :: rest := by
  obtain ⟨_, restNodup, apart⟩ := List.nodup_append.mp nodup
  have inFront : ∀ other ∈ front, (if other = node then min else other) = other :=
    fun other member => if_neg (apart other member node List.mem_cons_self)
  have inRest : ∀ other ∈ rest, (if other = node then min else other) = other := by
    intro other member
    apply if_neg
    rintro rfl
    exact (List.nodup_cons.mp restNodup).1 member
  rw [List.map_append, List.map_cons, if_pos rfl, List.map_congr_left inFront,
    List.map_congr_left inRest, List.map_id', List.map_id']

theorem avlNodes_map_avlReplace [DecidableEq Node] {node min : Node} :
    avlNodes (tree.map (avlReplace node min)) =
      (avlNodes tree).map fun other => if other = node then min else other := by
  rw [avlNodes, avlNodes, BinaryTree.inorder_map, List.map_map, List.map_map]
  apply List.map_congr_left
  intro value _
  rw [Function.comp_apply, Function.comp_apply, avlReplace]
  split
  · rfl
  · rfl

/-- `avl_delete_worker` takes the node out of the tree, which stays in
balance. -/
theorem avlDeleteWorker_eq [DecidableEq Node]
    (balanced : (fill (.node value left right) path).Balanced AvlNode.balance)
    (nodup : (avlNodes (fill (.node value left right) path)).Nodup) :
    AvlRoot (avlDeleteWorker value left right path)
      (avlAround path (avlNodes left ++ avlNodes right)) := by
  have child : ∀ {tree : BinaryTree (AvlNode Node)},
      left = .nil ∧ right = tree ∨ left = tree ∧ right = .nil →
        AvlRoot (avlPostDelete tree path)
          (avlAround path (avlNodes left ++ avlNodes right)) := by
    rintro tree (⟨rfl, rfl⟩ | ⟨rfl, rfl⟩)
    all_goals obtain ⟨⟨leftBalanced, rightBalanced, _⟩, hole⟩ :=
      BinaryTree.balanced_fill.mp balanced
    · apply avlPostDelete_eq ⟨rightBalanced, rfl, rfl⟩
      simpa [BinaryTree.height] using hole
    · apply avlPostDelete_eq ⟨leftBalanced, List.append_nil _ |>.symm, rfl⟩
      simpa [BinaryTree.height] using hole
  match left, right with
  | .nil, right =>
      have step : avlDeleteWorker value .nil right path = avlPostDelete right path :=
        avlDeleteChild_nil_left
      rw [step]
      exact child (.inl ⟨rfl, rfl⟩)
  | .node below first second, .nil =>
      have step : avlDeleteWorker value (.node below first second) .nil path =
          avlPostDelete (.node below first second) path := by
        rw [avlDeleteWorker, avlDeleteChild_nil_right]
        exact nofun
      rw [step]
      exact child (.inr ⟨rfl, rfl⟩)
  | .node top first second, .node below rightLeft rightRight =>
      obtain ⟨⟨min, minRight, minPath⟩, found⟩ :
          ∃ triple, avlLocalMin below rightLeft rightRight
            (.right value (.node top first second) :: path) = triple := ⟨_, rfl⟩
      obtain ⟨same, rest, isFirst, around⟩ := avlLocalMin_eq found
      rw [BinaryTree.fill_cons, BinaryTree.under] at same
      rw [← same] at balanced
      obtain ⟨⟨_, minBalanced, _⟩, hole⟩ := BinaryTree.balanced_fill.mp balanced
      obtain ⟨root, deleted, rootBalanced, rootNodes⟩ :=
        @avlPostDelete_eq _ _ _ _ _ ⟨minBalanced, rfl, rfl⟩
          (by simpa [BinaryTree.height] using hole)
      refine ⟨root.map (avlReplace value.node min.node), ?_, ?_, ?_⟩
      · rw [avlDeleteWorker, found]
        simp [avlDeleteChild_nil_left, deleted]
      · apply rootBalanced.map
        intro other
        rw [avlReplace]
        split
        · rfl
        · rfl
      · rw [avlNodes_fill, avlNodes_node, isFirst] at nodup
        rw [avlNodes_map_avlReplace, rootNodes, around, avlAround_right, isFirst]
        rw [avlAround_append, List.cons_append] at nodup
        rw [avlAround_append, avlAround_append, List.cons_append, List.cons_append]
        apply map_avlReplace
        refine List.Nodup.sublist (List.Sublist.append_left ?_ _) nodup
        exact ((List.sublist_cons_self min.node rest).cons_cons
          value.node).append_right _

end Path

end LibubusJni.Libubox
