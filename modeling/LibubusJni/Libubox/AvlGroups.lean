import LibubusJni.Libubox.AvlNodes

/-!
# The nodes of a tree by their keys

The list of a tree falls into groups of nodes with one key, whose leaders are the
nodes of the tree from left to right.
-/

namespace LibubusJni.Libubox

open BinaryTree (Parent fill)

universe v

variable {Node : Type} {Key : Type v} {comp : Key → Key → Ordering}
  {keyOf : Node → Key} {key : Key} {node new last other : Node}
  {front rest dups : List Node} {leader : Node → Bool}

/-! ## Places in the list -/

section Places

variable [DecidableEq Node]

theorem takeWhile_ne (absent : node ∉ front) :
    (front ++ node :: rest).takeWhile (· ≠ node) = front := by
  rw [List.takeWhile_append_of_pos, List.takeWhile_cons_of_neg, List.append_nil]
  · simp
  · intro other member
    exact decide_eq_true fun same => absent (same ▸ member)

theorem dropWhile_ne (absent : node ∉ front) :
    (front ++ node :: rest).dropWhile (· ≠ node) = node :: rest := by
  rw [List.dropWhile_append_of_pos, List.dropWhile_cons_of_neg]
  · simp
  · intro other member
    exact decide_eq_true fun same => absent (same ▸ member)

theorem avlBehind_eq (absent : node ∉ front) :
    avlBehind node (front ++ node :: rest) = rest := by
  rw [avlBehind, dropWhile_ne absent]
  rfl

theorem avlInsertBefore_eq (absent : node ∉ front) :
    avlInsertBefore node new (front ++ node :: rest) =
      front ++ new :: node :: rest := by
  rw [avlInsertBefore, takeWhile_ne absent, dropWhile_ne absent]

theorem avlInsertAfter_eq (absent : node ∉ front) :
    avlInsertAfter node new (front ++ node :: rest) =
      front ++ node :: new :: rest := by
  rw [avlInsertAfter, takeWhile_ne absent, avlBehind_eq absent]

omit [DecidableEq Node] in
/-- The loop of `avl_insert` ends at the last of the duplicates. -/
theorem avlLast_eq (followers : ∀ dup ∈ dups, leader dup = false)
    (leads : ∀ next ∈ rest.head?, leader next = true) :
    ∃ front last, node :: dups = front ++ [last] ∧
      avlLast leader node (dups ++ rest) = last := by
  induction dups generalizing node with
  | nil =>
      refine ⟨[], node, rfl, ?_⟩
      cases rest with
      | nil =>
          rfl
      | cons next rest =>
          exact if_pos (leads next rfl)
  | cons dup dups inductionHypothesis =>
      obtain ⟨front, last, same, isLast⟩ :=
        @inductionHypothesis dup fun other member =>
          followers other (List.mem_cons_of_mem dup member)
      refine ⟨node :: front, last, by rw [same]; rfl, ?_⟩
      rw [List.cons_append, avlLast, if_neg, isLast]
      rw [followers dup List.mem_cons_self]
      exact Bool.false_ne_true

end Places

/-! ## The descent -/

/-- The key lies at the hole. -/
def AvlPath (comp : Key → Key → Ordering) (keyOf : Node → Key) (key : Key)
    (path : List (Parent (AvlNode Node))) : Prop :=
  (∀ node ∈ (BinaryTree.before path).map AvlNode.node,
      comp key (keyOf node) = .gt) ∧
    ∀ node ∈ (BinaryTree.behind path).map AvlNode.node,
      comp key (keyOf node) = .lt

/-- The keys of a tree ascend. -/
def AvlAscending (comp : Key → Key → Ordering) (keyOf : Node → Key)
    (nodes : List Node) : Prop :=
  nodes.Pairwise fun earlier later => comp (keyOf earlier) (keyOf later) = .lt

/-- Where `avl_find_rec` ends. -/
structure AvlFound (comp : Key → Key → Ordering) (keyOf : Node → Key) (key : Key)
    (tree : BinaryTree (AvlNode Node)) (place : AvlPlace Node)
    (diff : Ordering) : Prop where
  whole : place.whole = tree
  compared : comp key (keyOf place.value.node) = diff
  left : diff = .lt → place.left = .nil
  right : diff = .gt → place.right = .nil
  path : AvlPath comp keyOf key place.path

theorem AvlPath.goLeft [Std.TransCmp comp] {value : AvlNode Node}
    {right : BinaryTree (AvlNode Node)} {path : List (Parent (AvlNode Node))}
    (around : AvlPath comp keyOf key path)
    (compared : comp key (keyOf value.node) = .lt)
    (above : ∀ node ∈ avlNodes right,
      comp (keyOf value.node) (keyOf node) = .lt) :
    AvlPath comp keyOf key (.left value right :: path) := by
  refine ⟨around.1, fun node member => ?_⟩
  rw [BinaryTree.behind, List.map_append, List.map_cons] at member
  rcases List.mem_append.mp member with inner | outer
  · rcases List.mem_cons.mp inner with rfl | inRight
    · exact compared
    · exact Std.TransCmp.lt_trans compared (above node inRight)
  · exact around.2 node outer

theorem AvlPath.goRight [Std.TransCmp comp] {value : AvlNode Node}
    {left : BinaryTree (AvlNode Node)} {path : List (Parent (AvlNode Node))}
    (around : AvlPath comp keyOf key path)
    (compared : comp key (keyOf value.node) = .gt)
    (below : ∀ node ∈ avlNodes left,
      comp (keyOf node) (keyOf value.node) = .lt) :
    AvlPath comp keyOf key (.right value left :: path) := by
  refine ⟨fun node member => ?_, around.2⟩
  rw [BinaryTree.before, List.map_append, List.map_append] at member
  rcases List.mem_append.mp member with outer | inner
  · exact around.1 node outer
  · rcases List.mem_append.mp inner with inLeft | isValue
    · exact Std.TransCmp.gt_trans compared
        (Std.OrientedCmp.gt_of_lt (below node inLeft))
    · rw [List.mem_singleton.mp isValue]
      exact compared

theorem avlFindRec_eq [Std.TransCmp comp] {tree : BinaryTree (AvlNode Node)}
    {path : List (Parent (AvlNode Node))} (filled : tree ≠ .nil)
    (ascending : AvlAscending comp keyOf (avlNodes tree))
    (around : AvlPath comp keyOf key path) :
    ∃ place diff, avlFindRec comp keyOf key tree path = some (place, diff) ∧
      AvlFound comp keyOf key (fill tree path) place diff := by
  induction tree generalizing path with
  | nil =>
      exact absurd rfl filled
  | node value left right leftHypothesis rightHypothesis =>
      rw [avlNodes_node] at ascending
      obtain ⟨leftAscending, rest, below⟩ := List.pairwise_append.mp ascending
      obtain ⟨above, rightAscending⟩ := List.pairwise_cons.mp rest
      cases compared : comp key (keyOf value.node) with
      | lt =>
          cases left with
          | nil =>
              refine ⟨⟨value, .nil, right, path⟩, .lt, ?_, rfl, compared,
                fun _ => rfl, nofun, around⟩
              simp [avlFindRec, compared]
          | node below first second =>
              obtain ⟨place, diff, found, isFound⟩ := leftHypothesis nofun
                leftAscending (around.goLeft compared above)
              refine ⟨place, diff, ?_, isFound⟩
              rw [← found]
              simp [avlFindRec.eq_def comp keyOf key (.node value _ right),
                compared]
      | gt =>
          cases right with
          | nil =>
              refine ⟨⟨value, left, .nil, path⟩, .gt, ?_, rfl, compared,
                nofun, fun _ => rfl, around⟩
              simp [avlFindRec, compared]
          | node above first second =>
              obtain ⟨place, diff, found, isFound⟩ := rightHypothesis nofun
                rightAscending (around.goRight compared fun node member =>
                  below node member _ List.mem_cons_self)
              refine ⟨place, diff, ?_, isFound⟩
              rw [← found]
              simp [avlFindRec.eq_def comp keyOf key (.node value left _),
                compared]
      | eq =>
          refine ⟨⟨value, left, right, path⟩, .eq, ?_, rfl, compared, nofun,
            nofun, around⟩
          simp [avlFindRec, compared]

/-! ## Groups -/

/-- The nodes with one key, in the order of their insertion. -/
structure AvlGroup (Node : Type) where
  leader : Node
  dups : List Node

def AvlGroup.nodes (group : AvlGroup Node) : List Node :=
  group.leader :: group.dups

/-- The fields of the nodes of a group. -/
structure AvlGrouped (comp : Key → Key → Ordering) (keyOf : Node → Key)
    (allowDups : Bool) (leader : Node → Bool) (group : AvlGroup Node) :
    Prop where
  leads : leader group.leader = true
  follows : ∀ dup ∈ group.dups, leader dup = false
  same : ∀ dup ∈ group.dups, comp (keyOf group.leader) (keyOf dup) = .eq
  allowed : ∀ dup ∈ group.dups, allowDups = true

/-- The tree is in balance and consists of the leaders, and the list of all the
groups. -/
structure AvlRep (comp : Key → Key → Ordering) (keyOf : Node → Key)
    (allowDups : Bool) (groups : List (AvlGroup Node)) (tree : AvlTree Node) :
    Prop where
  balanced : tree.root.Balanced AvlNode.balance
  root : avlNodes tree.root = groups.map AvlGroup.leader
  list : tree.list = groups.flatMap AvlGroup.nodes
  nodup : tree.list.Nodup
  count : tree.count = tree.list.length
  ascending : AvlAscending comp keyOf (groups.map AvlGroup.leader)
  grouped : ∀ group ∈ groups, AvlGrouped comp keyOf allowDups tree.leader group

variable {allowDups : Bool} {group : AvlGroup Node}
  {lower upper groups : List (AvlGroup Node)} {tree : AvlTree Node}

theorem AvlGrouped.compare [Std.TransCmp comp]
    (grouped : AvlGrouped comp keyOf allowDups leader group)
    (member : node ∈ group.nodes) :
    comp key (keyOf node) = comp key (keyOf group.leader) := by
  rcases List.mem_cons.mp member with rfl | inDups
  · rfl
  · exact (Std.TransCmp.congr_right (grouped.same node inDups)).symm

theorem AvlGrouped.update [DecidableEq Node] {flag : Bool}
    (grouped : AvlGrouped comp keyOf allowDups leader group)
    (fresh : new ∉ group.nodes) :
    AvlGrouped comp keyOf allowDups (Function.update leader new flag) group := by
  have others : ∀ node ∈ group.nodes,
      Function.update leader new flag node = leader node := by
    intro node member
    apply Function.update_of_ne
    rintro rfl
    exact fresh member
  refine ⟨?_, fun dup member => ?_, grouped.same, grouped.allowed⟩
  · rw [others _ List.mem_cons_self]
    exact grouped.leads
  · rw [others dup (List.mem_cons_of_mem _ member)]
    exact grouped.follows dup member

/-- A node is above all nodes of groups whose leaders it is above. -/
theorem compare_flatMap [Std.TransCmp comp] {ordering : Ordering}
    (grouped : ∀ group ∈ groups, AvlGrouped comp keyOf allowDups leader group)
    (leaders : ∀ node ∈ groups.map AvlGroup.leader,
      comp key (keyOf node) = ordering) :
    ∀ node ∈ groups.flatMap AvlGroup.nodes, comp key (keyOf node) = ordering := by
  intro node member
  obtain ⟨group, isGroup, inGroup⟩ := List.mem_flatMap.mp member
  rw [(grouped group isGroup).compare inGroup]
  exact leaders _ (List.mem_map_of_mem isGroup)

theorem avlInsertDup_append
    (below : ∀ node ∈ front, comp (keyOf new) (keyOf node) ≠ .lt)
    (above : ∀ node ∈ rest, comp (keyOf new) (keyOf node) = .lt) :
    avlInsertDup comp keyOf new (front ++ rest) = front ++ new :: rest := by
  induction front with
  | nil =>
      cases rest with
      | nil =>
          rfl
      | cons first rest =>
          exact if_pos (above first List.mem_cons_self)
  | cons first front inductionHypothesis =>
      rw [List.cons_append, avlInsertDup, if_neg (below first List.mem_cons_self),
        inductionHypothesis fun node member =>
          below node (List.mem_cons_of_mem first member)]
      rfl

/-- The groups around a node of the tree. -/
theorem AvlRep.place {place : AvlPlace Node}
    (rep : AvlRep comp keyOf allowDups groups tree)
    (whole : place.whole = tree.root) :
    ∃ lower group upper, groups = lower ++ group :: upper ∧
      group.leader = place.value.node ∧
      lower.map AvlGroup.leader =
        (BinaryTree.before place.path).map AvlNode.node ++ avlNodes place.left ∧
      upper.map AvlGroup.leader =
        avlNodes place.right ++
          (BinaryTree.behind place.path).map AvlNode.node := by
  have nodes := rep.root
  rw [← whole, AvlPlace.whole, avlNodes_fill, avlNodes_node, avlAround,
    List.append_assoc, List.cons_append, ← List.append_assoc] at nodes
  obtain ⟨lower, others, rfl, isLower, isOthers⟩ :=
    List.map_eq_append_iff.mp nodes.symm
  obtain ⟨group, upper, rfl, isNode, isUpper⟩ := List.map_eq_cons_iff.mp isOthers
  exact ⟨lower, group, upper, rfl, isNode, isLower, isUpper⟩

/-- The descent ends between the groups below the key and those above it. -/
theorem AvlRep.found [Std.TransCmp comp]
    (rep : AvlRep comp keyOf allowDups groups tree) (filled : tree.root ≠ .nil) :
    ∃ place diff, avlFindRec comp keyOf key tree.root [] = some (place, diff) ∧
      AvlFound comp keyOf key tree.root place diff ∧
        ∃ lower group upper, groups = lower ++ group :: upper ∧
          group.leader = place.value.node ∧
          (lower.map AvlGroup.leader =
            (BinaryTree.before place.path).map AvlNode.node ++
              avlNodes place.left) ∧
          (upper.map AvlGroup.leader = avlNodes place.right ++
            (BinaryTree.behind place.path).map AvlNode.node) ∧
          (∀ node ∈ lower.map AvlGroup.leader, comp key (keyOf node) = .gt) ∧
            ∀ node ∈ upper.map AvlGroup.leader, comp key (keyOf node) = .lt := by
  obtain ⟨place, diff, found, isFound⟩ :=
    @avlFindRec_eq _ _ comp keyOf key _ tree.root [] filled
      (by rw [rep.root]; exact rep.ascending) ⟨nofun, nofun⟩
  obtain ⟨lower, group, upper, rfl, isNode, isLower, isUpper⟩ :=
    rep.place isFound.whole
  refine ⟨place, diff, found, isFound, lower, group, upper, rfl, isNode, isLower,
    isUpper, ?_⟩
  have ascending := rep.ascending
  rw [AvlAscending, List.map_append, List.map_cons, List.pairwise_append,
    List.pairwise_cons, isNode] at ascending
  obtain ⟨_, ⟨above, _⟩, below⟩ := ascending
  have compared := isFound.compared
  cases diff with
  | lt =>
      rw [isFound.left rfl, avlNodes_nil, List.append_nil] at isLower
      rw [isLower]
      exact ⟨isFound.path.1, fun node member =>
        Std.TransCmp.lt_trans compared (above node member)⟩
  | gt =>
      rw [isFound.right rfl, avlNodes_nil, List.nil_append] at isUpper
      rw [isUpper]
      exact ⟨fun node member => Std.TransCmp.gt_trans compared
        (Std.OrientedCmp.gt_of_lt (below node member _ List.mem_cons_self)),
        isFound.path.2⟩
  | eq =>
      refine ⟨fun node member => ?_, fun node member => ?_⟩
      · rw [Std.TransCmp.congr_left compared]
        exact Std.OrientedCmp.gt_of_lt
          (below node member _ List.mem_cons_self)
      · rw [Std.TransCmp.congr_left compared]
        exact above node member

/-! ## Insertion -/

theorem avlLeaf_subtree : AvlSubtree (avlLeaf new) [new] 1 :=
  @AvlSubtree.node _ .nil .nil new 0 trivial trivial rfl (by decide) (by decide)

/-- A new leaf to the left of a node, which may have a subtree to its right. -/
theorem avlLeafLeft_root {value : AvlNode Node}
    {right : BinaryTree (AvlNode Node)} {path : List (Parent (AvlNode Node))}
    (balanced :
      (fill (.node value .nil right) path).Balanced AvlNode.balance) :
    (value.balance = 1 → AvlRoot
      (some (fill (.node ⟨value.node, 0⟩ (avlLeaf new) right) path))
      (avlAround path (new :: value.node :: avlNodes right))) ∧
    (value.balance ≠ 1 → value.balance ≠ -1 ∧ AvlRoot
      (postInsert (.node ⟨value.node, -1⟩ (avlLeaf new) right) path)
      (avlAround path (new :: value.node :: avlNodes right))) := by
  obtain ⟨⟨_, rightBalanced, level, low, high⟩, hole⟩ :=
    BinaryTree.balanced_fill.mp balanced
  have leaf := @avlLeaf_subtree _ new
  simp only [BinaryTree.height] at level hole
  refine ⟨fun leans => ?_, fun even => ⟨by omega, ?_⟩⟩
  · have grown := @AvlSubtree.node _ _ _ value.node 0 leaf.balanced
      rightBalanced (by rw [leaf.height]; omega) (by omega) (by omega)
    rw [leaf.nodes, leaf.height] at grown
    apply grown.filled
    rwa [show max 1 right.height = max 0 right.height by omega]
  · have grown := @AvlSubtree.node _ _ _ value.node (-1) leaf.balanced
      rightBalanced (by rw [leaf.height]; omega) (by omega) (by omega)
    rw [leaf.nodes, leaf.height] at grown
    rw [show max 1 right.height = max 0 right.height + 1 by omega] at grown
    apply postInsert_eq grown _ hole
    exact fun isEven => absurd (Option.some.inj isEven) (by simp)

/-- A new leaf to the right of a node. -/
theorem avlLeafRight_root {value : AvlNode Node}
    {left : BinaryTree (AvlNode Node)} {path : List (Parent (AvlNode Node))}
    (balanced :
      (fill (.node value left .nil) path).Balanced AvlNode.balance) :
    (value.balance = -1 → AvlRoot
      (some (fill (.node ⟨value.node, 0⟩ left (avlLeaf new)) path))
      (avlAround path (avlNodes left ++ [value.node, new]))) ∧
    (value.balance ≠ -1 → value.balance ≠ 1 ∧ AvlRoot
      (postInsert (.node ⟨value.node, 1⟩ left (avlLeaf new)) path)
      (avlAround path (avlNodes left ++ [value.node, new]))) := by
  obtain ⟨⟨leftBalanced, _, level, low, high⟩, hole⟩ :=
    BinaryTree.balanced_fill.mp balanced
  have leaf := @avlLeaf_subtree _ new
  simp only [BinaryTree.height] at level hole
  refine ⟨fun leans => ?_, fun even => ⟨by omega, ?_⟩⟩
  · have grown := @AvlSubtree.node _ _ _ value.node 0 leftBalanced
      leaf.balanced (by rw [leaf.height]; omega) (by omega) (by omega)
    rw [leaf.nodes, leaf.height] at grown
    apply grown.filled
    rwa [show max left.height 1 = max left.height 0 by omega]
  · have grown := @AvlSubtree.node _ _ _ value.node 1 leftBalanced
      leaf.balanced (by rw [leaf.height]; omega) (by omega) (by omega)
    rw [leaf.nodes, leaf.height] at grown
    rw [show max left.height 1 = max left.height 0 + 1 by omega] at grown
    apply postInsert_eq grown _ hole
    exact fun isEven => absurd (Option.some.inj isEven) (by simp)

/-- What `avl_insert` does to the list, and its result. -/
def avlListInsert (comp : Key → Key → Ordering) (keyOf : Node → Key)
    (allowDups : Bool) (new : Node) (list : List Node) : Int × List Node :=
  if allowDups then (0, avlInsertDup comp keyOf new list)
  else
    match avlInsert comp keyOf new list with
    | some inserted => (0, inserted)
    | none => (-1, list)

section Insertion

variable [DecidableEq Node] {inserted : AvlTree Node}

/-- A new node between the groups. -/
theorem AvlRep.between [Std.TransCmp comp]
    (rep : AvlRep comp keyOf allowDups (lower ++ upper) tree)
    (fresh : new ∉ tree.list)
    (below : ∀ node ∈ lower.map AvlGroup.leader,
      comp (keyOf new) (keyOf node) = .gt)
    (above : ∀ node ∈ upper.map AvlGroup.leader,
      comp (keyOf new) (keyOf node) = .lt)
    (root : AvlRoot (some inserted.root)
      (lower.map AvlGroup.leader ++ new :: upper.map AvlGroup.leader))
    (list : inserted.list =
      lower.flatMap AvlGroup.nodes ++ new :: upper.flatMap AvlGroup.nodes)
    (flags : inserted.leader = Function.update tree.leader new true)
    (count : inserted.count = tree.count + 1) :
    AvlRep comp keyOf allowDups (lower ++ ⟨new, []⟩ :: upper) inserted ∧
      (0, inserted.list) = avlListInsert comp keyOf allowDups new tree.list := by
  obtain ⟨_, isRoot, balanced, nodes⟩ := root
  cases Option.some.inj isRoot
  have old : tree.list =
      lower.flatMap AvlGroup.nodes ++ upper.flatMap AvlGroup.nodes := by
    rw [rep.list, List.flatMap_append]
  have belowAll := compare_flatMap (fun group isGroup =>
    rep.grouped group (List.mem_append_left _ isGroup)) below
  have aboveAll := compare_flatMap (fun group isGroup =>
    rep.grouped group (List.mem_append_right _ isGroup)) above
  have placed : inserted.list = avlInsertDup comp keyOf new tree.list := by
    rw [list, old, avlInsertDup_append _ aboveAll]
    intro node member isLess
    exact absurd ((belowAll node member).symm.trans isLess) nofun
  have free : ∀ other ∈ tree.list, comp (keyOf new) (keyOf other) ≠ .eq := by
    intro other member isEqual
    rw [old] at member
    rcases List.mem_append.mp member with inLower | inUpper
    · exact absurd ((belowAll other inLower).symm.trans isEqual) nofun
    · exact absurd ((aboveAll other inUpper).symm.trans isEqual) nofun
  have perm : inserted.list.Perm (new :: tree.list) := by
    rw [placed]
    exact perm_avlInsertDup
  refine ⟨?_, ?_⟩
  rotate_left
  · rw [avlListInsert, avlInsert_some.mpr ⟨free, placed⟩, placed]
    cases allowDups with
    | false =>
        rfl
    | true =>
        rfl
  constructor
  · exact balanced
  · rw [nodes, List.map_append, List.map_cons]
  · rw [list, List.flatMap_append, List.flatMap_cons]
    rfl
  · exact perm.nodup_iff.mpr (List.nodup_cons.mpr ⟨fresh, rep.nodup⟩)
  · rw [count, rep.count, perm.length_eq, List.length_cons]
  · have ascending := rep.ascending
    rw [AvlAscending, List.map_append, List.pairwise_append] at ascending
    rw [AvlAscending, List.map_append, List.map_cons, List.pairwise_append,
      List.pairwise_cons]
    refine ⟨ascending.1, ⟨above, ascending.2.1⟩, fun earlier isEarlier => ?_⟩
    intro later isLater
    rcases List.mem_cons.mp isLater with rfl | inUpper
    · exact Std.OrientedCmp.lt_of_gt (below earlier isEarlier)
    · exact ascending.2.2 earlier isEarlier later inUpper
  · intro group member
    rw [flags]
    have apart : ∀ group ∈ lower ++ upper, new ∉ group.nodes := by
      intro group isGroup inGroup
      apply fresh
      rw [rep.list]
      exact List.mem_flatMap.mpr ⟨group, isGroup, inGroup⟩
    rcases List.mem_append.mp member with inLower | inUpper
    · have isGroup := List.mem_append_left upper inLower
      exact (rep.grouped group isGroup).update (apart group isGroup)
    · rcases List.mem_cons.mp inUpper with rfl | inUpper
      · exact ⟨Function.update_self .., nofun, nofun, nofun⟩
      · have isGroup := List.mem_append_right lower inUpper
        exact (rep.grouped group isGroup).update (apart group isGroup)

/-- A new node behind the others with its key. -/
theorem AvlRep.join [Std.TransCmp comp]
    (rep : AvlRep comp keyOf allowDups (lower ++ group :: upper) tree)
    (fresh : new ∉ tree.list)
    (same : comp (keyOf new) (keyOf group.leader) = .eq)
    (allowed : allowDups = true)
    (root : inserted.root = tree.root)
    (list : inserted.list = lower.flatMap AvlGroup.nodes ++
      (group.nodes ++ new :: upper.flatMap AvlGroup.nodes))
    (flags : inserted.leader = Function.update tree.leader new false)
    (count : inserted.count = tree.count + 1) :
    AvlRep comp keyOf allowDups
        (lower ++ ⟨group.leader, group.dups ++ [new]⟩ :: upper) inserted ∧
      (0, inserted.list) = avlListInsert comp keyOf allowDups new tree.list := by
  have old : tree.list = lower.flatMap AvlGroup.nodes ++ group.nodes ++
      upper.flatMap AvlGroup.nodes := by
    rw [rep.list, List.flatMap_append, List.flatMap_cons, List.append_assoc]
  have ascending := rep.ascending
  rw [AvlAscending, List.map_append, List.map_cons, List.pairwise_append,
    List.pairwise_cons] at ascending
  obtain ⟨_, ⟨above, _⟩, below⟩ := ascending
  have placed : inserted.list = avlInsertDup comp keyOf new tree.list := by
    rw [list, old, avlInsertDup_append, List.append_assoc]
    · intro node member isLess
      rcases List.mem_append.mp member with inLower | inGroup
      · have isGreater := compare_flatMap (fun group isGroup =>
          rep.grouped group (List.mem_append_left _ isGroup))
          (fun node isLeader => (Std.TransCmp.congr_left same).trans
            (Std.OrientedCmp.gt_of_lt
              (below node isLeader _ List.mem_cons_self))) node inLower
        rw [isGreater] at isLess
        exact absurd isLess nofun
      · have inGroups : group ∈ lower ++ group :: upper :=
          List.mem_append_right _ List.mem_cons_self
        rw [(rep.grouped group inGroups).compare inGroup, same] at isLess
        exact absurd isLess nofun
    · exact compare_flatMap (fun group isGroup => rep.grouped group
        (List.mem_append_right _ (List.mem_cons_of_mem _ isGroup)))
        fun node isLeader => (Std.TransCmp.congr_left same).trans
          (above node isLeader)
  have perm : inserted.list.Perm (new :: tree.list) := by
    rw [placed]
    exact perm_avlInsertDup
  refine ⟨?_, by rw [avlListInsert, if_pos allowed, placed]⟩
  constructor
  · rw [root]
    exact rep.balanced
  · rw [root, rep.root, List.map_append, List.map_append, List.map_cons,
      List.map_cons]
  · rw [list, List.flatMap_append, List.flatMap_cons]
    simp [AvlGroup.nodes]
  · exact perm.nodup_iff.mpr (List.nodup_cons.mpr ⟨fresh, rep.nodup⟩)
  · rw [count, rep.count, perm.length_eq, List.length_cons]
  · have ascending := rep.ascending
    rw [List.map_append, List.map_cons] at ascending ⊢
    exact ascending
  · intro other member
    rw [flags]
    have apart : ∀ other ∈ lower ++ group :: upper, new ∉ other.nodes := by
      intro other isGroup inGroup
      apply fresh
      rw [rep.list]
      exact List.mem_flatMap.mpr ⟨other, isGroup, inGroup⟩
    have stays : ∀ other ∈ lower ++ group :: upper,
        AvlGrouped comp keyOf allowDups (Function.update tree.leader new false)
          other :=
      fun other isGroup => (rep.grouped other isGroup).update (apart other isGroup)
    rcases List.mem_append.mp member with inLower | inUpper
    · exact stays other (List.mem_append_left _ inLower)
    · rcases List.mem_cons.mp inUpper with rfl | inUpper
      · have joined := stays group (List.mem_append_right _ List.mem_cons_self)
        refine ⟨joined.leads, fun dup isDup => ?_, fun dup isDup => ?_,
          fun _ _ => allowed⟩
        · rcases List.mem_append.mp isDup with isOld | isNew
          · exact joined.follows dup isOld
          · rw [List.mem_singleton.mp isNew]
            exact Function.update_self ..
        · rcases List.mem_append.mp isDup with isOld | isNew
          · exact joined.same dup isOld
          · rw [List.mem_singleton.mp isNew]
            exact Std.OrientedCmp.eq_symm same
      · exact stays other
          (List.mem_append_right _ (List.mem_cons_of_mem _ inUpper))

section Split

variable (rep : AvlRep comp keyOf allowDups (lower ++ group :: upper) tree)

include rep

omit [DecidableEq Node] in
theorem AvlRep.list_eq :
    tree.list = lower.flatMap AvlGroup.nodes ++
      group.leader :: (group.dups ++ upper.flatMap AvlGroup.nodes) := by
  rw [rep.list, List.flatMap_append, List.flatMap_cons]
  rfl

theorem AvlRep.absent : group.leader ∉ lower.flatMap AvlGroup.nodes := by
  have nodup := rep.nodup
  rw [rep.list_eq] at nodup
  exact fun member => (List.nodup_append.mp nodup).2.2 _ member _
    List.mem_cons_self rfl

theorem AvlRep.insertBefore :
    avlInsertBefore group.leader new tree.list =
      lower.flatMap AvlGroup.nodes ++
        new :: (group :: upper).flatMap AvlGroup.nodes := by
  rw [rep.list_eq, avlInsertBefore_eq rep.absent]
  rfl

theorem AvlRep.insertAfter (fresh : new ∉ tree.list) :
    avlInsertAfter
        (avlLast (Function.update tree.leader new true) group.leader
          (avlBehind group.leader tree.list)) new tree.list =
      lower.flatMap AvlGroup.nodes ++
        (group.nodes ++ new :: upper.flatMap AvlGroup.nodes) := by
  have isGroup : group ∈ lower ++ group :: upper :=
    List.mem_append_right _ List.mem_cons_self
  have other : ∀ node ∈ tree.list,
      Function.update tree.leader new true node = tree.leader node := by
    intro node member
    apply Function.update_of_ne
    rintro rfl
    exact fresh member
  rw [rep.list_eq] at fresh other
  have followers : ∀ dup ∈ group.dups,
      Function.update tree.leader new true dup = false := by
    intro dup member
    rw [other dup (by simp [member])]
    exact (rep.grouped group isGroup).follows dup member
  have leads : ∀ next ∈ (upper.flatMap AvlGroup.nodes).head?,
      Function.update tree.leader new true next = true := by
    intro next isNext
    cases upper with
    | nil =>
        exact absurd isNext nofun
    | cons above upper =>
        cases isNext
        rw [other _ (by simp [AvlGroup.nodes])]
        exact (rep.grouped above (by simp)).leads
  obtain ⟨front, last, isLast, found⟩ :
      ∃ front last, group.nodes = front ++ [last] ∧ _ :=
    avlLast_eq followers leads
  have old : tree.list = (lower.flatMap AvlGroup.nodes ++ front) ++
      last :: upper.flatMap AvlGroup.nodes := by
    rw [rep.list_eq, ← List.cons_append, ← AvlGroup.nodes, isLast]
    simp
  have nodup := rep.nodup
  rw [old] at nodup
  have absent : last ∉ lower.flatMap AvlGroup.nodes ++ front :=
    fun member => (List.nodup_append.mp nodup).2.2 _ member _
      List.mem_cons_self rfl
  rw [rep.list_eq, avlBehind_eq rep.absent, found, ← rep.list_eq, old,
    avlInsertAfter_eq absent, isLast]
  simp

end Split

/-- The fields of a node that is not in the tree do not matter. -/
theorem AvlRep.mark {flag : Bool} (rep : AvlRep comp keyOf allowDups groups tree)
    (fresh : new ∉ tree.list) :
    AvlRep comp keyOf allowDups groups
      { tree with leader := Function.update tree.leader new flag } := by
  refine ⟨rep.balanced, rep.root, rep.list, rep.nodup, rep.count, rep.ascending,
    fun group isGroup => (rep.grouped group isGroup).update fun inGroup => ?_⟩
  apply fresh
  rw [rep.list]
  exact List.mem_flatMap.mpr ⟨group, isGroup, inGroup⟩

/-- What `avl_insert` makes of a tree. -/
def AvlInserted (comp : Key → Key → Ordering) (keyOf : Node → Key)
    (allowDups : Bool) (new : Node) (tree : AvlTree Node)
    (result : Option (Int × AvlTree Node)) : Prop :=
  ∃ code inserted groups, result = some (code, inserted) ∧
    AvlRep comp keyOf allowDups groups inserted ∧
      (code, inserted.list) = avlListInsert comp keyOf allowDups new tree.list

/-- The new node has been put between the groups. -/
theorem AvlRep.insertBetween [Std.TransCmp comp]
    {result : Option (BinaryTree (AvlNode Node))}
    (rep : AvlRep comp keyOf allowDups (lower ++ upper) tree)
    (fresh : new ∉ tree.list)
    (below : ∀ node ∈ lower.map AvlGroup.leader,
      comp (keyOf new) (keyOf node) = .gt)
    (above : ∀ node ∈ upper.map AvlGroup.leader,
      comp (keyOf new) (keyOf node) = .lt)
    (root : AvlRoot result
      (lower.map AvlGroup.leader ++ new :: upper.map AvlGroup.leader))
    {list : List Node} (isList : list =
      lower.flatMap AvlGroup.nodes ++ new :: upper.flatMap AvlGroup.nodes) :
    AvlInserted comp keyOf allowDups new tree
      (result.bind fun root => some (0, ⟨root, list,
        Function.update tree.leader new true, tree.count + 1⟩)) := by
  obtain ⟨tree', isRoot, balanced, nodes⟩ := root
  rw [isRoot, Option.bind_some]
  have inserted := @AvlRep.between _ _ comp keyOf new allowDups lower upper tree
    _ ⟨tree', list, Function.update tree.leader new true, tree.count + 1⟩ _ rep
    fresh below above ⟨tree', rfl, balanced, nodes⟩ isList rfl rfl
  exact ⟨_, _, _, rfl, inserted.1, inserted.2⟩

theorem AvlRep.insert [Std.TransCmp comp]
    (rep : AvlRep comp keyOf allowDups groups tree) (fresh : new ∉ tree.list) :
    AvlInserted comp keyOf allowDups new tree
      (avlTreeInsert comp keyOf allowDups new tree) := by
  cases isRoot : tree.root with
  | nil =>
      have noGroups : groups = [] := by
        have nodes := rep.root
        rw [isRoot] at nodes
        exact List.map_eq_nil_iff.mp nodes.symm
      subst noGroups
      have isList : tree.list = [] := rep.list
      have isCount : tree.count = 0 := by
        rw [rep.count, isList]
        rfl
      have inserted := @AvlRep.insertBetween _ _ comp keyOf new allowDups [] []
        tree _ _ (some (avlLeaf new)) rep fresh nofun nofun
        ⟨_, rfl, avlLeaf_subtree.balanced, avlLeaf_subtree.nodes⟩ [new] rfl
      rw [Option.bind_some, isCount] at inserted
      rw [avlTreeInsert, isRoot, isList]
      exact inserted
  | node top first second =>
      have filled : tree.root ≠ .nil := by
        rw [isRoot]
        exact nofun
      obtain ⟨place, diff, found, isFound, lower, group, upper, rfl, isNode,
        isLower, isUpper, below, above⟩ := @AvlRep.found _ _ _ _ (keyOf new) _ _ _
          _ rep filled
      have balanced := rep.balanced
      have compared := isFound.compared
      rw [← isFound.whole, AvlPlace.whole] at balanced
      have after := rep.insertAfter fresh
      have before := @AvlRep.insertBefore _ _ _ _ new _ _ _ _ _ _ rep
      rw [isNode] at after before
      rw [isRoot] at found
      simp only [avlTreeInsert, isRoot, found, Option.bind_eq_bind,
        Option.bind_some, after, before, compared]
      cases diff with
      | lt =>
          have noLeft := isFound.left rfl
          rw [noLeft] at balanced isLower
          rw [avlNodes_nil, List.append_nil] at isLower
          obtain ⟨leaning, level⟩ := @avlLeafLeft_root _ new _ _ _ balanced
          have nodes : avlAround place.path
              (new :: place.value.node :: avlNodes place.right) =
                lower.map AvlGroup.leader ++
                  new :: (group :: upper).map AvlGroup.leader := by
            rw [isLower, List.map_cons, isUpper, isNode]
            rfl
          rw [nodes] at leaning level
          have behind : ∀ node ∈ (group :: upper).map AvlGroup.leader,
              comp (keyOf new) (keyOf node) = .lt := by
            intro node member
            rcases List.mem_cons.mp member with rfl | inUpper
            · rw [isNode]
              exact compared
            · exact above node inUpper
          by_cases leans : place.value.balance = 1
          · simp only [leans, ↓reduceIte, reduceCtorEq]
            exact rep.insertBetween fresh below behind (leaning leans) rfl
          · obtain ⟨notLeaning, root⟩ := level leans
            simp only [leans, notLeaning, ↓reduceIte, reduceCtorEq]
            exact rep.insertBetween fresh below behind root rfl
      | gt =>
          have noRight := isFound.right rfl
          rw [noRight] at balanced isUpper
          rw [avlNodes_nil, List.nil_append] at isUpper
          obtain ⟨leaning, level⟩ := @avlLeafRight_root _ new _ _ _ balanced
          have nodes : avlAround place.path
              (avlNodes place.left ++ [place.value.node, new]) =
                (lower ++ [group]).map AvlGroup.leader ++
                  new :: upper.map AvlGroup.leader := by
            rw [List.map_append, isLower, isUpper, List.map_singleton, isNode]
            simp [avlAround]
          rw [nodes] at leaning level
          have around : ∀ node ∈ (lower ++ [group]).map AvlGroup.leader,
              comp (keyOf new) (keyOf node) = .gt := by
            intro node member
            rw [List.map_append] at member
            rcases List.mem_append.mp member with inLower | isGroup
            · exact below node inLower
            · rw [List.mem_singleton.mp isGroup, isNode]
              exact compared
          have split : AvlRep comp keyOf allowDups ((lower ++ [group]) ++ upper)
              tree := by
            rw [List.append_assoc]
            exact rep
          have list : lower.flatMap AvlGroup.nodes ++
              (group.nodes ++ new :: upper.flatMap AvlGroup.nodes) =
                (lower ++ [group]).flatMap AvlGroup.nodes ++
                  new :: upper.flatMap AvlGroup.nodes := by
            simp
          by_cases leans : place.value.balance = -1
          · simp only [leans, ↓reduceIte, reduceCtorEq]
            exact split.insertBetween fresh around above (leaning leans) list
          · obtain ⟨notLeaning, root⟩ := level leans
            simp only [leans, notLeaning, ↓reduceIte, reduceCtorEq]
            exact split.insertBetween fresh around above root list
      | eq =>
          have same : comp (keyOf new) (keyOf group.leader) = .eq := by
            rw [isNode]
            exact compared
          simp only [↓reduceIte]
          cases allowed : allowDups with
          | true =>
              rw [allowed] at rep
              obtain ⟨joined, result⟩ := @AvlRep.join _ _ comp keyOf new true
                group lower upper tree _ ⟨tree.root, _,
                  Function.update tree.leader new false, tree.count + 1⟩ _ rep
                fresh same rfl rfl rfl rfl rfl
              refine ⟨0, _, _, ?_, joined, result⟩
              simp [isRoot]
          | false =>
              rw [allowed] at rep
              have member : group.leader ∈ tree.list := by
                rw [rep.list_eq]
                simp
              refine ⟨-1, _, _, by simp [isRoot]; rfl, rep.mark fresh, ?_⟩
              rw [avlListInsert,
                avlInsert_none.mpr ⟨group.leader, member, same⟩]
              rfl

end Insertion

/-! ## Deletion -/

section Deletion

variable [DecidableEq Node]

theorem avlPlace_some {tree : BinaryTree (AvlNode Node)}
    {path : List (Parent (AvlNode Node))} {place : AvlPlace Node}
    (found : avlPlace node tree path = some place) :
    place.value.node = node ∧ place.whole = fill tree path := by
  induction tree generalizing path with
  | nil =>
      exact absurd found nofun
  | node value left right leftHypothesis rightHypothesis =>
      rw [avlPlace] at found
      split at found
      · rename_i isNode
        cases found
        exact ⟨isNode, rfl⟩
      · rcases Option.or_eq_some_iff.mp found with inLeft | ⟨_, inRight⟩
        · exact leftHypothesis inLeft
        · exact rightHypothesis inRight

theorem avlPlace_none {tree : BinaryTree (AvlNode Node)}
    {path : List (Parent (AvlNode Node))}
    (absent : avlPlace node tree path = none) : node ∉ avlNodes tree := by
  induction tree generalizing path with
  | nil =>
      exact List.not_mem_nil
  | node value left right leftHypothesis rightHypothesis =>
      rw [avlPlace] at absent
      split at absent
      · exact absurd absent nofun
      · rename_i isOther
        obtain ⟨notLeft, notRight⟩ := Option.or_eq_none_iff.mp absent
        rw [avlNodes_node]
        intro member
        rcases List.mem_append.mp member with inLeft | inRest
        · exact leftHypothesis notLeft inLeft
        · rcases List.mem_cons.mp inRest with isValue | inRight
          · exact isOther isValue.symm
          · exact rightHypothesis notRight inRight

theorem avlDelete_eq (nodup : (front ++ node :: rest).Nodup) :
    avlDelete node (front ++ node :: rest) = front ++ rest := by
  have apart := List.nodup_middle.mp nodup
  have others := (List.nodup_cons.mp apart).1
  rw [avlDelete, List.filter_append, List.filter_cons_of_neg (by simp),
    List.filter_eq_self.mpr, List.filter_eq_self.mpr]
  · intro other member
    exact decide_eq_true fun same =>
      others (List.mem_append_right _ (same ▸ member))
  · intro other member
    exact decide_eq_true fun same =>
      others (List.mem_append_left _ (same ▸ member))

/-- What `avl_delete` makes of a tree. -/
def AvlDeleted (comp : Key → Key → Ordering) (keyOf : Node → Key)
    (allowDups : Bool) (node : Node) (tree : AvlTree Node)
    (result : Option (AvlTree Node)) : Prop :=
  ∃ removed groups, result = some removed ∧
    AvlRep comp keyOf allowDups groups removed ∧
      removed.list = avlDelete node tree.list

/-- Without a node of its list the tree consists of other groups. -/
theorem AvlRep.without {root : BinaryTree (AvlNode Node)}
    {others : List (AvlGroup Node)} {flags : Node → Bool}
    (rep : AvlRep comp keyOf allowDups groups tree)
    (isRoot : AvlRoot (some root) (others.map AvlGroup.leader))
    (old : tree.list = front ++ node :: rest)
    (list : front ++ rest = others.flatMap AvlGroup.nodes)
    (ascending : AvlAscending comp keyOf (others.map AvlGroup.leader))
    (grouped : ∀ group ∈ others, AvlGrouped comp keyOf allowDups flags group) :
    AvlDeleted comp keyOf allowDups node tree
      (some ⟨root, listDel node tree.list, flags, tree.count - 1⟩) := by
  obtain ⟨_, same, balanced, nodes⟩ := isRoot
  cases Option.some.inj same
  have nodup := rep.nodup
  rw [old] at nodup
  have removed : listDel node tree.list = front ++ rest := by
    rw [old]
    exact avlDelete_eq nodup
  refine ⟨_, others, rfl, ⟨balanced, nodes, removed.trans list, ?_, ?_,
    ascending, grouped⟩, rfl⟩
  · show (listDel node tree.list).Nodup
    rw [removed]
    exact (List.nodup_cons.mp (List.nodup_middle.mp nodup)).2
  · show tree.count - 1 = (listDel node tree.list).length
    rw [removed, rep.count, old, List.length_append, List.length_append,
      List.length_cons]
    rfl

/-- A duplicate is only in the list. -/
theorem AvlRep.deleteDup {before behind : List Node}
    (rep : AvlRep comp keyOf allowDups (lower ++ group :: upper) tree)
    (isDup : group.dups = before ++ node :: behind) :
    AvlDeleted comp keyOf allowDups node tree
      (avlTreeDelete allowDups node tree) := by
  have isGroup : group ∈ lower ++ group :: upper :=
    List.mem_append_right _ List.mem_cons_self
  have grouped := rep.grouped group isGroup
  have notLeader : tree.leader node = false :=
    grouped.follows node (by rw [isDup]; simp)
  rw [avlTreeDelete, avlTreeRemove, if_neg (by rw [notLeader]; exact nofun)]
  have leaders : (lower ++ group :: upper).map AvlGroup.leader =
      (lower ++ ⟨group.leader, before ++ behind⟩ :: upper).map
        AvlGroup.leader := by
    rw [List.map_append, List.map_append, List.map_cons, List.map_cons]
  have old : tree.list = (lower.flatMap AvlGroup.nodes ++ group.leader :: before) ++
      node :: (behind ++ upper.flatMap AvlGroup.nodes) := by
    rw [rep.list_eq, isDup]
    simp
  refine rep.without ⟨_, rfl, rep.balanced, rep.root.trans leaders⟩ old ?_ ?_ ?_
  · simp [AvlGroup.nodes]
  · rw [← leaders]
    exact rep.ascending
  · intro other member
    rcases List.mem_append.mp member with inLower | inUpper
    · exact rep.grouped other (List.mem_append_left _ inLower)
    · rcases List.mem_cons.mp inUpper with rfl | inUpper
      · have still : ∀ dup ∈ before ++ behind, dup ∈ group.dups := by
          intro dup inOthers
          rw [isDup]
          rcases List.mem_append.mp inOthers with inBefore | inBehind
          · exact List.mem_append_left _ inBefore
          · exact List.mem_append_right _ (List.mem_cons_of_mem _ inBehind)
        exact ⟨grouped.leads, fun dup isDup => grouped.follows dup (still dup isDup),
          fun dup isDup => grouped.same dup (still dup isDup),
          fun dup isDup => grouped.allowed dup (still dup isDup)⟩
      · exact rep.grouped other
          (List.mem_append_right _ (List.mem_cons_of_mem _ inUpper))

omit [DecidableEq Node] in
theorem AvlAscending.nodup [Std.TransCmp comp] {nodes : List Node}
    (ascending : AvlAscending comp keyOf nodes) : nodes.Nodup := by
  apply ascending.imp
  rintro earlier _ isLess rfl
  exact absurd (isLess.symm.trans Std.ReflCmp.compare_self) nofun

/-- The next node with the key becomes the leader. -/
theorem AvlRep.deleteLed [Std.TransCmp comp] {next : Node}
    (rep : AvlRep comp keyOf allowDups (lower ++ group :: upper) tree)
    (isDups : group.dups = next :: rest) :
    AvlDeleted comp keyOf allowDups group.leader tree
      (avlTreeDelete allowDups group.leader tree) := by
  have isGroup : group ∈ lower ++ group :: upper :=
    List.mem_append_right _ List.mem_cons_self
  have grouped := rep.grouped group isGroup
  have isDup : next ∈ group.dups := by
    rw [isDups]
    exact List.mem_cons_self
  have list := rep.list_eq
  have behind : avlBehind group.leader tree.list =
      next :: (rest ++ upper.flatMap AvlGroup.nodes) := by
    rw [list, avlBehind_eq rep.absent, isDups]
    rfl
  have heir : avlHeir allowDups group.leader tree = some next := by
    rw [avlHeir, behind]
    simp [grouped.follows next isDup, grouped.allowed next isDup]
  rw [avlTreeDelete, avlTreeRemove, if_pos grouped.leads, heir]
  have same := grouped.same next isDup
  have nodup := rep.nodup
  rw [list, isDups] at nodup
  have apart : next ∉ (lower.flatMap AvlGroup.nodes ++ [group.leader]) ++
      (rest ++ upper.flatMap AvlGroup.nodes) := by
    apply (List.nodup_cons.mp (List.nodup_middle.mp _)).1
    simpa using nodup
  have ascending := rep.ascending
  rw [List.map_append, List.map_cons] at ascending
  have nodes : avlNodes (tree.root.map (avlReplace group.leader next)) =
      (lower ++ ⟨next, rest⟩ :: upper).map AvlGroup.leader := by
    rw [avlNodes_map_avlReplace, rep.root, List.map_append, List.map_cons,
      map_avlReplace ascending.nodup, List.map_append, List.map_cons]
  have balanced : (tree.root.map (avlReplace group.leader next)).Balanced
      AvlNode.balance := by
    apply rep.balanced.map
    intro value
    rw [avlReplace]
    split
    · rfl
    · rfl
  refine rep.without ⟨_, rfl, balanced, nodes⟩ list ?_ ?_ ?_
  · simp [AvlGroup.nodes, isDups]
  · rw [AvlAscending, List.pairwise_append, List.pairwise_cons] at ascending
    rw [AvlAscending, List.map_append, List.map_cons, List.pairwise_append,
      List.pairwise_cons]
    obtain ⟨lowerAscending, ⟨above, upperAscending⟩, below⟩ := ascending
    refine ⟨lowerAscending, ⟨fun later isLater => ?_, upperAscending⟩,
      fun earlier isEarlier later isLater => ?_⟩
    · rw [← Std.TransCmp.congr_left same]
      exact above later isLater
    · rcases List.mem_cons.mp isLater with rfl | inUpper
      · rw [← Std.TransCmp.congr_right same]
        exact below earlier isEarlier _ List.mem_cons_self
      · exact below earlier isEarlier later (List.mem_cons_of_mem _ inUpper)
  · have others : ∀ other ∈ lower ++ upper, next ∉ other.nodes := by
      intro other isOther inOther
      apply apart
      rcases List.mem_append.mp isOther with inLower | inUpper
      · exact List.mem_append_left _ (List.mem_append_left _
          (List.mem_flatMap.mpr ⟨other, inLower, inOther⟩))
      · exact List.mem_append_right _ (List.mem_append_right _
          (List.mem_flatMap.mpr ⟨other, inUpper, inOther⟩))
    intro other member
    rcases List.mem_append.mp member with inLower | inUpper
    · exact (rep.grouped other (List.mem_append_left _ inLower)).update
        (others other (List.mem_append_left _ inLower))
    · rcases List.mem_cons.mp inUpper with rfl | inUpper
      · have inDups : ∀ dup ∈ rest, dup ∈ group.dups := by
          intro dup member
          rw [isDups]
          exact List.mem_cons_of_mem _ member
        refine ⟨Function.update_self .., fun dup member => ?_,
          fun dup member => ?_, fun dup member =>
            grouped.allowed dup (inDups dup member)⟩
        · apply (Function.update_of_ne _ _ _).trans
            (grouped.follows dup (inDups dup member))
          rintro rfl
          exact apart (List.mem_append_right _ (List.mem_append_left _ member))
        · exact (Std.TransCmp.congr_left same).symm.trans
            (grouped.same dup (inDups dup member))
      · exact (rep.grouped other (List.mem_append_right _
          (List.mem_cons_of_mem _ inUpper))).update
            (others other (List.mem_append_right _ inUpper))

/-- The leader was alone. -/
theorem AvlRep.deleteAlone [Std.TransCmp comp]
    (rep : AvlRep comp keyOf allowDups (lower ++ group :: upper) tree)
    (isDups : group.dups = []) :
    AvlDeleted comp keyOf allowDups group.leader tree
      (avlTreeDelete allowDups group.leader tree) := by
  have isGroup : group ∈ lower ++ group :: upper :=
    List.mem_append_right _ List.mem_cons_self
  have list := rep.list_eq
  rw [isDups, List.nil_append] at list
  have heir : avlHeir allowDups group.leader tree = none := by
    rw [avlHeir, list, avlBehind_eq rep.absent]
    cases upper with
    | nil =>
        rfl
    | cons next upper =>
        have leads := (rep.grouped next (by simp)).leads
        simp [AvlGroup.nodes, leads]
  have ascending := rep.ascending
  rw [List.map_append, List.map_cons] at ascending
  have isRoot := rep.root
  rw [List.map_append, List.map_cons] at isRoot
  have balanced := rep.balanced
  cases found : avlPlace group.leader tree.root [] with
  | none =>
      apply absurd _ (avlPlace_none found)
      rw [isRoot]
      simp
  | some place =>
      obtain ⟨isNode, whole⟩ := avlPlace_some found
      have nodup := ascending.nodup
      rw [← isRoot, ← BinaryTree.fill_nil tree.root, ← whole, AvlPlace.whole]
        at nodup
      rw [← BinaryTree.fill_nil tree.root, ← whole, AvlPlace.whole] at balanced
      obtain ⟨root, deleted, rootBalanced, rootNodes⟩ :=
        avlDeleteWorker_eq balanced nodup
      rw [avlTreeDelete, avlTreeRemove, if_pos (rep.grouped group isGroup).leads,
        heir]
      simp only [found, deleted, Option.bind_eq_bind, Option.bind_some]
      have nodes : avlNodes root = (lower ++ upper).map AvlGroup.leader := by
        have removed : avlAround place.path
            (avlNodes place.left ++ avlNodes place.right) =
              avlDelete group.leader (avlNodes tree.root) := by
          rw [← BinaryTree.fill_nil tree.root, ← whole, AvlPlace.whole]
          rw [avlNodes_fill, avlNodes_node, isNode, avlAround_append,
            List.cons_append] at nodup
          rw [avlNodes_fill, avlNodes_node, isNode, avlAround_append,
            avlAround_append, List.cons_append, avlDelete_eq nodup]
        rw [rootNodes, removed, isRoot, avlDelete_eq ascending.nodup,
          List.map_append]
      refine rep.without ⟨_, rfl, rootBalanced, nodes⟩ list ?_ ?_ ?_
      · exact (List.flatMap_append ..).symm
      · rw [AvlAscending, List.map_append]
        exact ascending.sublist
          (List.Sublist.append_left (List.sublist_cons_self _ _) _)
      · intro other member
        apply rep.grouped
        rcases List.mem_append.mp member with inLower | inUpper
        · exact List.mem_append_left _ inLower
        · exact List.mem_append_right _ (List.mem_cons_of_mem _ inUpper)

theorem AvlRep.delete [Std.TransCmp comp]
    (rep : AvlRep comp keyOf allowDups groups tree) (member : node ∈ tree.list) :
    AvlDeleted comp keyOf allowDups node tree
      (avlTreeDelete allowDups node tree) := by
  rw [rep.list] at member
  obtain ⟨group, isGroup, inGroup⟩ := List.mem_flatMap.mp member
  obtain ⟨lower, upper, rfl⟩ := List.append_of_mem isGroup
  rcases List.mem_cons.mp inGroup with rfl | inDups
  · cases isDups : group.dups with
    | nil =>
        exact rep.deleteAlone isDups
    | cons next rest =>
        exact rep.deleteLed isDups
  · obtain ⟨before, behind, isDup⟩ := List.append_of_mem inDups
    exact rep.deleteDup isDup

end Deletion

end LibubusJni.Libubox
