import Mathlib.Data.List.Basic

/-!
# `avl.c` and `avl-cmp.c`

A tree is read in the order of its list, which is the order of its keys; nodes
with one key stand in the order of their insertion.  How the nodes are balanced
is left out.
-/

namespace LibubusJni.Libubox

universe u v

variable {Node : Type u} {Key : Type v}

/-- `avl_strcmp` of two strings without their zeros. -/
def avlStrcmp : List UInt8 → List UInt8 → Ordering
  | [], [] => .eq
  | [], _ :: _ => .lt
  | _ :: _, [] => .gt
  | first :: rest, other :: others =>
      if first < other then .lt
      else if other < first then .gt
      else avlStrcmp rest others

/-- `avl_find`. -/
def avlFind (comp : Key → Key → Ordering) (keyOf : Node → Key) (key : Key)
    (tree : List Node) : Option Node :=
  tree.find? fun node => comp key (keyOf node) == .eq

/-- `avl_find_greaterequal` and the nodes behind what it finds. -/
def avlFindGreaterequal (comp : Key → Key → Ordering) (keyOf : Node → Key)
    (key : Key) (tree : List Node) : List Node :=
  tree.dropWhile fun node => comp key (keyOf node) == .gt

/-- `avl_insert` into a tree that allows duplicates. -/
def avlInsertDup (comp : Key → Key → Ordering) (keyOf : Node → Key)
    (node : Node) : List Node → List Node
  | [] => [node]
  | first :: rest =>
      if comp (keyOf node) (keyOf first) = .lt then node :: first :: rest
      else first :: avlInsertDup comp keyOf node rest

/-- `avl_insert` into a tree without duplicates; `none` is the return value
`-1`. -/
def avlInsert (comp : Key → Key → Ordering) (keyOf : Node → Key)
    (node : Node) (tree : List Node) : Option (List Node) :=
  if (avlFind comp keyOf (keyOf node) tree).isSome then none
  else some (avlInsertDup comp keyOf node tree)

/-- `avl_delete`. -/
def avlDelete [DecidableEq Node] (node : Node) (tree : List Node) :
    List Node :=
  tree.filter (· ≠ node)

variable {comp : Key → Key → Ordering} {keyOf : Node → Key} {key : Key}
  {node other : Node} {tree inserted : List Node}

@[simp]
theorem mem_avlInsertDup :
    other ∈ avlInsertDup comp keyOf node tree ↔ other = node ∨ other ∈ tree := by
  induction tree with
  | nil =>
      simp [avlInsertDup]
  | cons first rest inductionHypothesis =>
      rw [avlInsertDup]
      split
      · simp
      · simp [inductionHypothesis, or_left_comm]

/-- Wherever it is put, the node is added to the tree. -/
theorem perm_avlInsertDup :
    (avlInsertDup comp keyOf node tree).Perm (node :: tree) := by
  induction tree with
  | nil =>
      exact List.Perm.refl _
  | cons first rest inductionHypothesis =>
      rw [avlInsertDup]
      split
      · exact List.Perm.refl _
      · exact (inductionHypothesis.cons first).trans (List.Perm.swap ..)

@[simp]
theorem mem_avlDelete [DecidableEq Node] :
    other ∈ avlDelete node tree ↔ other ∈ tree ∧ other ≠ node := by
  simp [avlDelete]

theorem avlFind_some (found : avlFind comp keyOf key tree = some node) :
    node ∈ tree ∧ comp key (keyOf node) = .eq := by
  have equal : (comp key (keyOf node) == .eq) = true :=
    List.find?_some (p := fun node => comp key (keyOf node) == .eq) found
  exact ⟨List.mem_of_find?_eq_some found, beq_iff_eq.mp equal⟩

theorem avlFind_none :
    avlFind comp keyOf key tree = none ↔
      ∀ node ∈ tree, comp key (keyOf node) ≠ .eq := by
  simp [avlFind]

theorem avlInsert_some :
    avlInsert comp keyOf node tree = some inserted ↔
      (∀ other ∈ tree, comp (keyOf node) (keyOf other) ≠ .eq) ∧
        inserted = avlInsertDup comp keyOf node tree := by
  rw [avlInsert]
  by_cases taken : (avlFind comp keyOf (keyOf node) tree).isSome = true
  · obtain ⟨found, isFound⟩ := Option.isSome_iff_exists.mp taken
    obtain ⟨member, equal⟩ := avlFind_some isFound
    rw [if_pos taken]
    constructor
    · intro none
      exact absurd none (Option.some_ne_none _).symm
    · rintro ⟨free, _⟩
      exact absurd equal (free found member)
  · have free := avlFind_none.mp (Option.not_isSome_iff_eq_none.mp taken)
    rw [if_neg taken, Option.some.injEq]
    constructor
    · intro equal
      exact ⟨free, equal.symm⟩
    · rintro ⟨_, equal⟩
      exact equal.symm

theorem avlInsert_none :
    avlInsert comp keyOf node tree = none ↔
      ∃ other ∈ tree, comp (keyOf node) (keyOf other) = .eq := by
  constructor
  · intro refused
    by_contra absent
    have free : ∀ other ∈ tree, comp (keyOf node) (keyOf other) ≠ .eq :=
      fun other member equal => absent ⟨other, member, equal⟩
    rw [avlInsert_some.mpr ⟨free, rfl⟩] at refused
    exact Option.some_ne_none _ refused
  · intro ⟨other, member, equal⟩
    cases inserting : avlInsert comp keyOf node tree with
    | none =>
        rfl
    | some inserted =>
        exact absurd equal ((avlInsert_some.mp inserting).1 other member)

theorem avlStrcmp_eq {first second : List UInt8} :
    avlStrcmp first second = .eq ↔ first = second := by
  induction first generalizing second with
  | nil =>
      cases second with
      | nil =>
          simp [avlStrcmp]
      | cons other others =>
          simp [avlStrcmp]
  | cons byte rest inductionHypothesis =>
      cases second with
      | nil =>
          simp [avlStrcmp]
      | cons other others =>
          rw [avlStrcmp]
          split
          · rename_i less
            simp [UInt8.ne_of_lt less]
          · split
            · rename_i greater
              simp [(UInt8.ne_of_lt greater).symm]
            · rename_i notLess notGreater
              have same : byte = other :=
                UInt8.le_antisymm (UInt8.not_lt.mp notGreater)
                  (UInt8.not_lt.mp notLess)
              simp [same, inductionHypothesis]

end LibubusJni.Libubox
