import LibubusJni.Lib.Sorted
import LibubusJni.Libubox.Avl

/-!
# The order of the nodes of a tree

The list of a tree is sorted by its keys.  `avl_find_greaterequal` walks along
it from wherever the descent ended, first to the right and then to the left, and
stops at the first node that is not below the key.
-/

namespace LibubusJni.Libubox

open LibubusJni.Lib

universe u v

/-! ## Strings -/

theorem avlStrcmp_eq_compareLex :
    avlStrcmp = List.compareLex (compare : UInt8 → UInt8 → Ordering) := by
  funext first second
  induction first generalizing second with
  | nil =>
      cases second with
      | nil =>
          rfl
      | cons other others =>
          rfl
  | cons byte rest inductionHypothesis =>
      cases second with
      | nil =>
          rfl
      | cons other others =>
          rw [avlStrcmp, List.compareLex_cons_cons, inductionHypothesis]
          split
          · rename_i less
            rw [Std.compare_eq_lt.mpr less]
            rfl
          · split
            · rename_i greater
              rw [Std.compare_eq_gt.mpr greater]
              rfl
            · rename_i notLess notGreater
              have same : byte = other :=
                UInt8.le_antisymm (UInt8.not_lt.mp notGreater)
                  (UInt8.not_lt.mp notLess)
              rw [same, Std.ReflOrd.compare_self]
              rfl

instance : Std.TransCmp avlStrcmp := by
  rw [avlStrcmp_eq_compareLex]
  infer_instance

/-! ## Trees -/

variable {Node : Type u} {Key : Type v} {comp : Key → Key → Ordering}
  {keyOf other : Node → Key} {key : Key} {node : Node} {tree inserted : List Node}

/-- The keys of a tree do not descend. -/
def AvlSorted (comp : Key → Key → Ordering) (keyOf : Node → Key)
    (tree : List Node) : Prop :=
  tree.Pairwise fun earlier later =>
    (comp (keyOf earlier) (keyOf later)).isLE = true

theorem AvlSorted.sublist (sorted : AvlSorted comp keyOf tree)
    (sub : inserted.Sublist tree) : AvlSorted comp keyOf inserted :=
  List.Pairwise.sublist sub sorted

theorem AvlSorted.congr (sorted : AvlSorted comp keyOf tree)
    (same : ∀ node ∈ tree, other node = keyOf node) :
    AvlSorted comp other tree := by
  apply List.Pairwise.imp_of_mem _ sorted
  intro earlier later earlierMember laterMember ordered
  rw [same earlier earlierMember, same later laterMember]
  exact ordered

/-- A node is inserted behind all that are not above it. -/
theorem AvlSorted.insertDup [Std.TransCmp comp]
    (sorted : AvlSorted comp keyOf tree) :
    AvlSorted comp keyOf (avlInsertDup comp keyOf node tree) := by
  induction tree with
  | nil =>
      exact List.pairwise_singleton _ _
  | cons first rest inductionHypothesis =>
      obtain ⟨below, restSorted⟩ := List.pairwise_cons.mp sorted
      rw [avlInsertDup]
      split
      · rename_i less
        apply List.pairwise_cons.mpr
        refine ⟨fun later member => ?_, sorted⟩
        have first : (comp (keyOf node) (keyOf first)).isLE = true := by
          rw [less]
          rfl
        cases List.mem_cons.mp member with
        | inl isFirst =>
            rw [isFirst]
            exact first
        | inr inRest =>
            exact Std.TransCmp.isLE_trans first (below later inRest)
      · rename_i notLess
        apply List.pairwise_cons.mpr
        refine ⟨fun later member => ?_, inductionHypothesis restSorted⟩
        cases mem_avlInsertDup.mp member with
        | inl isNode =>
            rw [isNode]
            exact Std.OrientedCmp.isLE_of_isGE
              (Ordering.isGE_iff_ne_lt.mpr notLess)
        | inr inRest =>
            exact below later inRest

/-! ## The walk of `avl_find_greaterequal` -/

/-- A node in its tree: what is in front of it, the nearest first, and what is
behind it. -/
structure AvlCursor (Node : Type u) where
  front : List Node
  node : Node
  behind : List Node

/-- The list of the tree. -/
def AvlCursor.nodes (cursor : AvlCursor Node) : List Node :=
  cursor.front.reverse ++ cursor.node :: cursor.behind

/-- `go right as long as key>node.key`; `none` is a null pointer. -/
def avlGoRight (comp : Key → Key → Ordering) (keyOf : Node → Key) (key : Key)
    (front : List Node) (node : Node) :
    List Node → Option (AvlCursor Node)
  | [] =>
      if comp key (keyOf node) = .gt then none else some ⟨front, node, []⟩
  | next :: rest =>
      if comp key (keyOf node) = .gt then
        avlGoRight comp keyOf key (node :: front) next rest
      else some ⟨front, node, next :: rest⟩

/-- `go left as long as key<=next_node.key`. -/
def avlGoLeft (comp : Key → Key → Ordering) (keyOf : Node → Key) (key : Key)
    (node : Node) (behind : List Node) : List Node → AvlCursor Node
  | [] => ⟨[], node, behind⟩
  | next :: rest =>
      if comp key (keyOf next) = .gt then ⟨next :: rest, node, behind⟩
      else avlGoLeft comp keyOf key next (node :: behind) rest

/-- `avl_find_greaterequal` from the node where `avl_find_rec` ended. -/
def avlWalk (comp : Key → Key → Ordering) (keyOf : Node → Key) (key : Key)
    (cursor : AvlCursor Node) : Option (AvlCursor Node) :=
  (avlGoRight comp keyOf key cursor.front cursor.node cursor.behind).map
    fun found => avlGoLeft comp keyOf key found.node found.behind found.front

/-- The test of the first loop holds at the beginning of the tree. -/
theorem AvlSorted.beginning [Std.TransCmp comp]
    (sorted : AvlSorted comp keyOf tree) :
    Beginning (fun node => comp key (keyOf node) == .gt) tree := by
  apply List.Pairwise.imp _ sorted
  intro earlier later ordered above
  exact beq_iff_eq.mpr (Std.TransCmp.gt_of_gt_of_isGE (beq_iff_eq.mp above)
    (Std.OrientedCmp.isGE_of_isLE ordered))

theorem dropWhile_append_of_all {test : Node → Bool} {front behind : List Node}
    (all : ∀ node ∈ front, test node = true) :
    (front ++ behind).dropWhile test = behind.dropWhile test := by
  rw [List.dropWhile_append, List.dropWhile_eq_nil_iff.mpr all]
  rfl

/-- The first loop ends at a node that is not below the key, or there is
none. -/
theorem avlGoRight_eq {front behind : List Node}
    (begins : Beginning (fun node => comp key (keyOf node) == .gt)
      (front.reverse ++ node :: behind)) :
    match avlGoRight comp keyOf key front node behind with
    | none => ∀ other ∈ front.reverse ++ node :: behind,
        comp key (keyOf other) = .gt
    | some found =>
        found.nodes = front.reverse ++ node :: behind ∧
          comp key (keyOf found.node) ≠ .gt := by
  induction behind generalizing front node with
  | nil =>
      rw [avlGoRight]
      by_cases above : comp key (keyOf node) = .gt
      · rw [if_pos above]
        intro other member
        cases List.mem_append.mp member with
        | inl inFront =>
            exact beq_iff_eq.mp ((List.pairwise_append.mp begins).2.2 other
              inFront node List.mem_cons_self (beq_iff_eq.mpr above))
        | inr isNode =>
            rw [List.mem_singleton.mp isNode]
            exact above
      · rw [if_neg above]
        exact ⟨rfl, above⟩
  | cons next rest inductionHypothesis =>
      rw [avlGoRight]
      by_cases above : comp key (keyOf node) = .gt
      · have moved : front.reverse ++ node :: next :: rest =
            (node :: front).reverse ++ next :: rest := by simp
        rw [moved] at begins
        rw [if_pos above, moved]
        exact inductionHypothesis begins
      · rw [if_neg above]
        exact ⟨rfl, above⟩

/-- The second loop goes back to the first such node. -/
theorem avlGoLeft_eq {front behind : List Node}
    (begins : Beginning (fun node => comp key (keyOf node) == .gt)
      (front.reverse ++ node :: behind))
    (notAbove : comp key (keyOf node) ≠ .gt) :
    (avlGoLeft comp keyOf key node behind front).node ::
        (avlGoLeft comp keyOf key node behind front).behind =
      avlFindGreaterequal comp keyOf key
        (front.reverse ++ node :: behind) := by
  have stays : (node :: behind).dropWhile
      (fun node => comp key (keyOf node) == .gt) = node :: behind :=
    List.dropWhile_cons_of_neg fun above => notAbove (beq_iff_eq.mp above)
  induction front generalizing node behind with
  | nil =>
      exact stays.symm
  | cons next rest inductionHypothesis =>
      rw [avlGoLeft]
      by_cases above : comp key (keyOf next) = .gt
      · have all : ∀ other ∈ (next :: rest).reverse,
            (comp key (keyOf other) == .gt) = true := by
          intro other member
          rw [List.reverse_cons] at member begins
          cases List.mem_append.mp member with
          | inl inRest =>
              have pairs := (List.pairwise_append.mp begins).1
              exact (List.pairwise_append.mp pairs).2.2 other inRest next
                List.mem_cons_self (beq_iff_eq.mpr above)
          | inr isNext =>
              rw [List.mem_singleton.mp isNext]
              exact beq_iff_eq.mpr above
        rw [if_pos above, avlFindGreaterequal, dropWhile_append_of_all all,
          stays]
      · have moved : (next :: rest).reverse ++ node :: behind =
            rest.reverse ++ next :: node :: behind := by simp
        rw [moved] at begins
        rw [if_neg above, moved]
        apply inductionHypothesis begins above
        exact List.dropWhile_cons_of_neg fun isAbove =>
          above (beq_iff_eq.mp isAbove)

/-- Wherever the descent ends, the walk finds the first node that is not below
the key. -/
theorem avlWalk_eq [Std.TransCmp comp] {cursor : AvlCursor Node}
    (sorted : AvlSorted comp keyOf cursor.nodes) :
    ((avlWalk comp keyOf key cursor).elim [] fun found =>
        found.node :: found.behind) =
      avlFindGreaterequal comp keyOf key cursor.nodes := by
  have begins := @AvlSorted.beginning _ _ _ _ key _ _ sorted
  have right := avlGoRight_eq begins
  rw [avlWalk]
  cases reached : avlGoRight comp keyOf key cursor.front cursor.node
      cursor.behind with
  | none =>
      rw [reached] at right
      apply Eq.symm
      apply List.dropWhile_eq_nil_iff.mpr
      intro other member
      exact beq_iff_eq.mpr (right other member)
  | some found =>
      rw [reached] at right
      obtain ⟨same, notAbove⟩ := right
      rw [AvlCursor.nodes, ← same] at begins
      rw [AvlCursor.nodes, ← same]
      exact avlGoLeft_eq begins notAbove

end LibubusJni.Libubox
