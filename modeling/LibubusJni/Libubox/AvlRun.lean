import LibubusJni.Lib.Simulation
import LibubusJni.Libubox.AvlGroups

/-!
# Trees over whole runs

The callers of `avl.c` keep two rules: a node that is in the tree is not inserted,
and a node that is not in it is not deleted.  Under them the tree does with its
pointers what `avl_insert`, `avl_delete` and `avl_find` do to a sorted list.
-/

namespace LibubusJni.Libubox

open LibubusJni.Lib (Machine)
open BinaryTree (fill)

universe v

variable {Node : Type} {Key : Type v}

/-- A call of `avl.c` that changes a tree. -/
inductive AvlCall (Node : Type) where
  | insert (node : Node)
  | delete (node : Node)

section Calls

variable [DecidableEq Node] (comp : Key → Key → Ordering) (keyOf : Node → Key)
  (allowDups : Bool)

/-- A tree after some calls, and the results of `avl_insert`, the last one
first. -/
def avlMachine (leader : Node → Bool) :
    Machine (List Int × AvlTree Node) (AvlCall Node) where
  init := ([], avlInit leader)
  step
    | (codes, tree), .insert node =>
        (avlTreeInsert comp keyOf allowDups node tree).map fun result =>
          (result.1 :: codes, result.2)
    | (codes, tree), .delete node =>
        (avlTreeDelete allowDups node tree).map fun removed => (codes, removed)

/-- The same with the list alone; a caller that breaks a rule is stopped. -/
def avlListMachine : Machine (List Int × List Node) (AvlCall Node) where
  init := ([], [])
  step
    | (codes, list), .insert node =>
        if node ∈ list then none
        else
          let result := avlListInsert comp keyOf allowDups node list
          some (result.1 :: codes, result.2)
    | (codes, list), .delete node =>
        if node ∈ list then some (codes, avlDelete node list) else none

end Calls

/-! ## Searches -/

section Searches

variable [DecidableEq Node]

/-- A node in the list of its tree. -/
def avlCursor (node : Node) (list : List Node) : AvlCursor Node where
  front := (list.takeWhile (· ≠ node)).reverse
  node := node
  behind := avlBehind node list

/-- `avl_find_greaterequal`. -/
def avlTreeFindGreaterequal (comp : Key → Key → Ordering) (keyOf : Node → Key)
    (key : Key) (tree : AvlTree Node) : Option Node := do
  let (place, _) ← avlFindRec comp keyOf key tree.root []
  let cursor ← avlWalk comp keyOf key (avlCursor place.value.node tree.list)
  some cursor.node

/-- The list from its end. -/
def AvlCursor.reverse (cursor : AvlCursor Node) : AvlCursor Node where
  front := cursor.behind
  node := cursor.node
  behind := cursor.front

/-- `avl_find_lessequal`: the walk of `avl_find_greaterequal` with left and right
exchanged. -/
def avlTreeFindLessequal (comp : Key → Key → Ordering) (keyOf : Node → Key)
    (key : Key) (tree : AvlTree Node) : Option Node := do
  let (place, _) ← avlFindRec comp keyOf key tree.root []
  let cursor ← avlWalk (fun one other => (comp one other).swap) keyOf key
    (avlCursor place.value.node tree.list).reverse
  some cursor.node

end Searches

/-! ## Runs -/

section Runs

variable [DecidableEq Node] {comp : Key → Key → Ordering} {keyOf : Node → Key}
  {allowDups : Bool} {leader : Node → Bool} {groups : List (AvlGroup Node)}
  {tree : AvlTree Node}

/-- The list of the tree, which is in balance. -/
def AvlRefines (comp : Key → Key → Ordering) (keyOf : Node → Key)
    (allowDups : Bool) (state : List Int × AvlTree Node)
    (spec : List Int × List Node) : Prop :=
  state.1 = spec.1 ∧ state.2.list = spec.2 ∧
    ∃ groups, AvlRep comp keyOf allowDups groups state.2

omit [DecidableEq Node] in
theorem avlRep_init :
    AvlRep comp keyOf allowDups [] (avlInit leader) where
  balanced := trivial
  root := rfl
  list := rfl
  nodup := List.nodup_nil
  count := rfl
  ascending := List.Pairwise.nil
  grouped := nofun

theorem avlMachine_follows [Std.TransCmp comp] :
    (avlMachine comp keyOf allowDups leader).Follows
      (avlListMachine comp keyOf allowDups) (AvlRefines comp keyOf allowDups) := by
  rintro ⟨codes, tree⟩ ⟨specCodes, list⟩ call next ⟨rfl, rfl, groups, rep⟩ taken
  cases call with
  | insert node =>
      simp only [avlListMachine, Option.ite_none_left_eq_some] at taken
      obtain ⟨fresh, isNext⟩ := taken
      obtain ⟨code, inserted, others, result, still, same⟩ := rep.insert fresh
      rw [← same] at isNext
      cases isNext
      refine ⟨(code :: codes, inserted), ?_, rfl, rfl, others, still⟩
      simp [avlMachine, result]
  | delete node =>
      simp only [avlListMachine, Option.ite_none_right_eq_some] at taken
      obtain ⟨member, isNext⟩ := taken
      obtain ⟨removed, others, result, still, same⟩ := rep.delete member
      cases isNext
      refine ⟨(codes, removed), ?_, rfl, same, others, still⟩
      simp [avlMachine, result]

theorem avlMachine_reached [Std.TransCmp comp] {calls : List (AvlCall Node)}
    {codes : List Int} {list : List Node}
    (run : (avlListMachine comp keyOf allowDups).run calls = some (codes, list)) :
    ∃ tree groups,
      (avlMachine comp keyOf allowDups leader).run calls = some (codes, tree) ∧
        tree.list = list ∧ AvlRep comp keyOf allowDups groups tree := by
  obtain ⟨⟨reached, tree⟩, ran, same, isList, groups, rep⟩ :=
    avlMachine_follows.run ⟨rfl, rfl, [], avlRep_init⟩ run
  cases same
  exact ⟨tree, groups, ran, isList, rep⟩

omit [DecidableEq Node] in
/-- The nodes of the tree are those of the list that lead. -/
theorem AvlRep.filter_leader (rep : AvlRep comp keyOf allowDups groups tree) :
    avlNodes tree.root = tree.list.filter tree.leader := by
  have grouped := rep.grouped
  rw [rep.root, rep.list]
  clear rep
  induction groups with
  | nil =>
      rfl
  | cons group groups inductionHypothesis =>
      have first := grouped group List.mem_cons_self
      have noDup : group.dups.filter tree.leader = [] := by
        apply List.filter_eq_nil_iff.mpr
        intro dup member
        rw [first.follows dup member]
        exact Bool.false_ne_true
      rw [List.map_cons, List.flatMap_cons, List.filter_append, AvlGroup.nodes,
        List.filter_cons_of_pos first.leads, noDup, inductionHypothesis
          fun other member => grouped other (List.mem_cons_of_mem _ member)]
      rfl

omit [DecidableEq Node] in
theorem AvlRep.sorted [Std.TransCmp comp]
    (rep : AvlRep comp keyOf allowDups groups tree) :
    AvlSorted comp keyOf tree.list := by
  have between : ∀ one ∈ groups, ∀ other ∈ groups, ∀ node ∈ one.nodes,
      ∀ later ∈ other.nodes, comp (keyOf node) (keyOf later) =
        comp (keyOf one.leader) (keyOf other.leader) := by
    intro one isOne other isOther node inOne later inOther
    have swap := @Std.OrientedCmp.eq_swap _ comp _
    rw [(rep.grouped other isOther).compare inOther, swap,
      (rep.grouped one isOne).compare inOne, ← swap]
  rw [AvlSorted, rep.list]
  refine List.pairwise_flatMap.mpr ⟨fun group isGroup => ?_, ?_⟩
  · apply List.Pairwise.imp_of_mem _ (List.pairwise_of_forall fun _ _ => trivial)
    intro node later inGroup laterInGroup _
    rw [between group isGroup group isGroup node inGroup later laterInGroup,
      @Std.ReflCmp.compare_self _ comp]
    rfl
  · have ascending := List.pairwise_map.mp rep.ascending
    apply List.Pairwise.imp_of_mem _ ascending
    intro one other isOne isOther isLess node inOne later inOther
    rw [between one isOne other isOther node inOne later inOther, isLess]
    rfl

omit [DecidableEq Node] in
theorem AvlRep.list_of_nil (rep : AvlRep comp keyOf allowDups groups tree)
    (empty : tree.root = .nil) : tree.list = [] := by
  have nodes := rep.root
  rw [empty] at nodes
  rw [rep.list, List.map_eq_nil_iff.mp nodes.symm]
  rfl

theorem AvlRep.avlTreeFind_eq [Std.TransCmp comp]
    (rep : AvlRep comp keyOf allowDups groups tree) (key : Key) :
    avlTreeFind comp keyOf key tree = avlFind comp keyOf key tree.list := by
  by_cases empty : tree.root = .nil
  · rw [avlTreeFind, empty, rep.list_of_nil empty]
    rfl
  · obtain ⟨place, diff, found, isFound, lower, group, upper, rfl, isNode, _, _,
      below, above⟩ := @AvlRep.found _ _ _ _ key _ _ _ _ rep empty
    have belowAll := compare_flatMap (fun group isGroup =>
      rep.grouped group (List.mem_append_left _ isGroup)) below
    have aboveAll := compare_flatMap (fun group isGroup =>
      rep.grouped group (List.mem_append_right _
        (List.mem_cons_of_mem _ isGroup))) above
    have isGroup : group ∈ lower ++ group :: upper :=
      List.mem_append_right _ List.mem_cons_self
    have compared := isFound.compared
    rw [← isNode] at compared
    rw [avlTreeFind, found, avlFind, rep.list_eq, List.find?_append,
      List.find?_eq_none.mpr fun node member => by
        rw [belowAll node member]; exact Bool.false_ne_true]
    by_cases equal : diff = .eq
    · rw [equal] at compared
      rw [List.find?_cons_of_pos (by rw [compared]; rfl)]
      simp [equal, isNode]
    · have others : ∀ node ∈ group.leader ::
          (group.dups ++ upper.flatMap AvlGroup.nodes),
            ¬(comp key (keyOf node) == .eq) = true := by
        intro node member same
        have inNodes : node ∈ group.nodes ++ upper.flatMap AvlGroup.nodes :=
          member
        rcases List.mem_append.mp inNodes with inGroup | inUpper
        · have same := beq_iff_eq.mp same
          rw [(rep.grouped group isGroup).compare inGroup, compared] at same
          exact equal same
        · rw [aboveAll node inUpper] at same
          exact Bool.false_ne_true same
      rw [List.find?_eq_none.mpr others]
      simp [equal]

theorem avlCursor_nodes {node : Node} {list : List Node} (member : node ∈ list) :
    (avlCursor node list).nodes = list := by
  obtain ⟨front, rest, rfl, absent⟩ := List.eq_append_cons_of_mem member
  rw [AvlCursor.nodes, avlCursor, takeWhile_ne absent, avlBehind_eq absent,
    List.reverse_reverse]

omit [DecidableEq Node] in
/-- Where a walk along the list ends, if it begins at some node. -/
theorem avlWalk_find [Std.TransCmp comp] {cursor : AvlCursor Node} (key : Key)
    (sorted : AvlSorted comp keyOf cursor.nodes) :
    (avlWalk comp keyOf key cursor).map AvlCursor.node =
      cursor.nodes.find? fun node => comp key (keyOf node) != .gt := by
  have ended := @avlWalk_eq _ _ comp keyOf key _ cursor sorted
  rw [List.find?_eq_head?_dropWhile_not]
  have test : (fun node => !(comp key (keyOf node) != .gt)) =
      fun node => comp key (keyOf node) == .gt := by
    funext node
    exact Bool.not_not _
  rw [test, ← avlFindGreaterequal, ← ended]
  cases avlWalk comp keyOf key cursor with
  | none =>
      rfl
  | some found =>
      rfl

theorem AvlRep.place_mem [Std.TransCmp comp] {key : Key}
    (rep : AvlRep comp keyOf allowDups groups tree) (filled : tree.root ≠ .nil) :
    ∃ place diff, avlFindRec comp keyOf key tree.root [] = some (place, diff) ∧
      place.value.node ∈ tree.list := by
  obtain ⟨place, diff, found, _, lower, group, upper, rfl, isNode, _⟩ :=
    @AvlRep.found _ _ _ _ key _ _ _ _ rep filled
  refine ⟨place, diff, found, ?_⟩
  rw [rep.list_eq, isNode]
  exact List.mem_append_right _ List.mem_cons_self

/-- The first node that is not below the key. -/
theorem AvlRep.findGreaterequal_eq [Std.TransCmp comp]
    (rep : AvlRep comp keyOf allowDups groups tree) (key : Key) :
    avlTreeFindGreaterequal comp keyOf key tree =
      tree.list.find? fun node => comp key (keyOf node) != .gt := by
  by_cases empty : tree.root = .nil
  · rw [avlTreeFindGreaterequal, empty, rep.list_of_nil empty]
    rfl
  · obtain ⟨place, diff, found, member⟩ :=
      @AvlRep.place_mem _ _ _ _ _ _ _ _ _ key rep empty
    have sorted := rep.sorted
    rw [← avlCursor_nodes member] at sorted
    have walked := avlWalk_find key sorted
    rw [avlCursor_nodes member] at walked
    rw [← walked, avlTreeFindGreaterequal, found, Option.map_eq_bind]
    rfl

omit [DecidableEq Node] in
theorem AvlCursor.nodes_reverse (cursor : AvlCursor Node) :
    cursor.reverse.nodes = cursor.nodes.reverse := by
  simp [AvlCursor.nodes, AvlCursor.reverse]

/-- The last node that is not above the key. -/
theorem AvlRep.findLessequal_eq [Std.TransCmp comp]
    (rep : AvlRep comp keyOf allowDups groups tree) (key : Key) :
    avlTreeFindLessequal comp keyOf key tree =
      tree.list.reverse.find? fun node => comp key (keyOf node) != .lt := by
  have swap : (fun one other => (comp one other).swap) =
      fun one other => comp other one := by
    funext one other
    exact Std.OrientedCmp.eq_swap.symm
  by_cases empty : tree.root = .nil
  · rw [avlTreeFindLessequal, empty, rep.list_of_nil empty]
    rfl
  · obtain ⟨place, diff, found, member⟩ :=
      @AvlRep.place_mem _ _ _ _ _ _ _ _ _ key rep empty
    have nodes : (avlCursor place.value.node tree.list).reverse.nodes =
        tree.list.reverse := by
      rw [AvlCursor.nodes_reverse, avlCursor_nodes member]
    have sorted : AvlSorted (fun one other => comp other one) keyOf
        (avlCursor place.value.node tree.list).reverse.nodes := by
      rw [nodes]
      exact List.pairwise_reverse.mpr rep.sorted
    have walked := avlWalk_find key sorted
    have test : (fun node => comp (keyOf node) key != .gt) =
        fun node => comp key (keyOf node) != .lt := by
      funext node
      rw [@Std.OrientedCmp.eq_swap _ comp]
      cases comp key (keyOf node) with
      | lt =>
          rfl
      | eq =>
          rfl
      | gt =>
          rfl
    rw [nodes, test] at walked
    rw [← walked, avlTreeFindLessequal, found, swap, Option.map_eq_bind]
    rfl

omit [DecidableEq Node] in
/-- The way of a search grows with the logarithm of the number of nodes. -/
theorem AvlRep.path_length [Std.TransCmp comp] {key : Key}
    {place : AvlPlace Node} {diff : Ordering}
    (rep : AvlRep comp keyOf allowDups groups tree)
    (found : avlFindRec comp keyOf key tree.root [] = some (place, diff)) :
    Nat.fib (place.path.length + 3) ≤ tree.count + 1 := by
  have filled : tree.root ≠ .nil := by
    intro empty
    rw [empty] at found
    exact absurd found nofun
  obtain ⟨other, otherDiff, isOther, isFound, _⟩ :=
    @AvlRep.found _ _ _ _ key _ _ _ _ rep filled
  cases found.symm.trans isOther
  have long := BinaryTree.length_add_height_le
    (.node place.value place.left place.right) place.path
  rw [← AvlPlace.whole, isFound.whole, BinaryTree.height] at long
  have leaders : tree.root.numNodes ≤ tree.count := by
    rw [← BinaryTree.length_inorder, rep.count, rep.list,
      ← @List.length_map _ _ tree.root.inorder AvlNode.node, ← avlNodes,
      rep.root, List.length_map]
    clear * -
    induction groups with
    | nil =>
        exact Nat.le_refl 0
    | cons group groups inductionHypothesis =>
        rw [List.flatMap_cons, List.length_append, AvlGroup.nodes,
          List.length_cons, List.length_cons]
        omega
  calc
    Nat.fib (place.path.length + 3) ≤ Nat.fib (tree.root.height + 2) :=
      Nat.fib_mono (by omega)
    _ ≤ tree.root.numNodes + 1 := rep.balanced.fib_le
    _ ≤ tree.count + 1 := Nat.succ_le_succ leaders

/-- In every run of such callers no function follows a null pointer, each result is
the one for the list, and the tree is in balance. -/
theorem avlMachine_run [Std.TransCmp comp] {calls : List (AvlCall Node)}
    {codes : List Int} {list : List Node}
    (run : (avlListMachine comp keyOf allowDups).run calls = some (codes, list)) :
    ∃ tree,
      (avlMachine comp keyOf allowDups leader).run calls = some (codes, tree) ∧
        tree.list = list ∧ tree.count = list.length ∧
          AvlSorted comp keyOf list ∧ tree.root.Balanced AvlNode.balance ∧
            avlNodes tree.root = list.filter tree.leader := by
  obtain ⟨tree, groups, ran, rfl, rep⟩ := avlMachine_reached run
  exact ⟨tree, ran, rfl, rep.count, rep.sorted, rep.balanced, rep.filter_leader⟩

theorem avlMachine_run_dups :
    ∃ tree, (avlMachine compare (· / 10) true fun _ => false).run
        [.insert 50, .insert 20, .insert 21, .insert 10, .insert 30, .delete 20,
          .delete 50] = some ([0, 0, 0, 0, 0], tree) ∧
      tree.list = [10, 21, 30] ∧ tree.count = [10, 21, 30].length ∧
        AvlSorted compare (· / 10) [10, 21, 30] ∧
          tree.root.Balanced AvlNode.balance ∧
            avlNodes tree.root = [10, 21, 30].filter tree.leader :=
  avlMachine_run (by decide +kernel)

/-- Every search in such a run finds what a search through the list finds. -/
theorem avlMachine_find [Std.TransCmp comp] {calls : List (AvlCall Node)}
    {codes : List Int} {list : List Node}
    (run : (avlListMachine comp keyOf allowDups).run calls = some (codes, list)) :
    ∃ tree,
      (avlMachine comp keyOf allowDups leader).run calls = some (codes, tree) ∧
        ∀ key,
          avlTreeFind comp keyOf key tree = avlFind comp keyOf key list ∧
          (avlTreeFindGreaterequal comp keyOf key tree =
            list.find? fun node => comp key (keyOf node) != .gt) ∧
          avlTreeFindLessequal comp keyOf key tree =
            list.reverse.find? fun node => comp key (keyOf node) != .lt := by
  obtain ⟨tree, groups, ran, rfl, rep⟩ := avlMachine_reached run
  exact ⟨tree, ran, fun key => ⟨rep.avlTreeFind_eq key, rep.findGreaterequal_eq key,
    rep.findLessequal_eq key⟩⟩

theorem avlMachine_find_dups :
    ∃ tree, (avlMachine compare (· / 10) true fun _ => false).run
        [.insert 50, .insert 20, .insert 21, .insert 40] =
          some ([0, 0, 0, 0], tree) ∧
      ∀ key,
        avlTreeFind compare (· / 10) key tree =
          avlFind compare (· / 10) key [20, 21, 40, 50] ∧
        (avlTreeFindGreaterequal compare (· / 10) key tree =
          [20, 21, 40, 50].find? fun node => compare key (node / 10) != .gt) ∧
        avlTreeFindLessequal compare (· / 10) key tree =
          [20, 21, 40, 50].reverse.find? fun node =>
            compare key (node / 10) != .lt :=
  avlMachine_find (by decide +kernel)

/-- A search goes down at most so far that the number of Fibonacci for its way does
not exceed the number of nodes. -/
theorem avlMachine_path_length [Std.TransCmp comp] {calls : List (AvlCall Node)}
    {codes : List Int} {list : List Node}
    (run : (avlListMachine comp keyOf allowDups).run calls = some (codes, list)) :
    ∃ tree,
      (avlMachine comp keyOf allowDups leader).run calls = some (codes, tree) ∧
        ∀ key place diff,
          avlFindRec comp keyOf key tree.root [] = some (place, diff) →
            Nat.fib (place.path.length + 3) ≤ list.length + 1 := by
  obtain ⟨tree, groups, ran, rfl, rep⟩ := avlMachine_reached run
  refine ⟨tree, ran, fun key place diff found => ?_⟩
  rw [← rep.count]
  exact rep.path_length found

theorem avlMachine_path_length_four :
    ∃ tree, (avlMachine compare id false fun _ => false).run
        [.insert 1, .insert 2, .insert 3, .insert 4] =
          some ([0, 0, 0, 0], tree) ∧
      ∀ key place diff,
        avlFindRec compare id key tree.root [] = some (place, diff) →
          Nat.fib (place.path.length + 3) ≤ [1, 2, 3, 4].length + 1 :=
  avlMachine_path_length (by decide +kernel)

end Runs

end LibubusJni.Libubox
