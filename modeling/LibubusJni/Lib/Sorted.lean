import Mathlib.Data.List.Basic
import Mathlib.Data.List.TakeWhile

/-!
# Searches along a sorted list

A test that never becomes true again splits a list in two, so the members that
pass it are found at its beginning.  Lists of letters in lexicographic order are
such a case: those that begin with a given list stand next to each other, and
towards a given list the common beginnings grow longer and longer.

A list that is only kept by putting each new member in front of the first one
that passes a test is as sorted as the test can tell.
-/

namespace LibubusJni.Lib

universe u

/-! ## Tests that hold at the beginning -/

section Beginning

variable {Node : Type u} {nodes : List Node} {test other : Node → Bool}

/-- The test of a later member implies that of an earlier one. -/
def Beginning (test : Node → Bool) (nodes : List Node) : Prop :=
  nodes.Pairwise fun earlier later => test later = true → test earlier = true

theorem takeWhile_eq_filter (beginning : Beginning test nodes) :
    nodes.takeWhile test = nodes.filter test := by
  induction nodes with
  | nil =>
      rfl
  | cons first rest inductionHypothesis =>
      obtain ⟨implied, restBeginning⟩ := List.pairwise_cons.mp beginning
      by_cases passes : test first = true
      · rw [List.takeWhile_cons_of_pos passes, List.filter_cons_of_pos passes,
          inductionHypothesis restBeginning]
      · have none : rest.filter test = [] := by
          apply List.filter_eq_nil_iff.mpr
          intro later member laterPasses
          exact passes (implied later member laterPasses)
        rw [List.takeWhile_cons_of_neg passes, List.filter_cons_of_neg passes,
          none]

/-- Behind the beginning the test fails. -/
theorem not_of_mem_dropWhile (beginning : Beginning test nodes) {node : Node}
    (member : node ∈ nodes.dropWhile test) : test node = false := by
  induction nodes with
  | nil =>
      exact absurd member List.not_mem_nil
  | cons first rest inductionHypothesis =>
      obtain ⟨implied, restBeginning⟩ := List.pairwise_cons.mp beginning
      by_cases passes : test first = true
      · rw [List.dropWhile_cons_of_pos passes] at member
        exact inductionHypothesis restBeginning member
      · rw [List.dropWhile_cons_of_neg passes] at member
        cases List.mem_cons.mp member with
        | inl isFirst =>
            rw [isFirst]
            exact eq_false_of_ne_true passes
        | inr inRest =>
            apply eq_false_of_ne_true
            intro laterPasses
            exact passes (implied node inRest laterPasses)

/-- Dropping members loses none that fail the test. -/
theorem filter_dropWhile
    (apart : ∀ node ∈ nodes, other node = true → test node = false) :
    (nodes.dropWhile test).filter other = nodes.filter other := by
  induction nodes with
  | nil =>
      rfl
  | cons first rest inductionHypothesis =>
      by_cases passes : test first = true
      · have notOther : ¬ other first = true := by
          intro isOther
          rw [apart first List.mem_cons_self isOther] at passes
          exact Bool.false_ne_true passes
        rw [List.dropWhile_cons_of_pos passes,
          List.filter_cons_of_neg notOther]
        exact inductionHypothesis fun node member =>
          apart node (List.mem_cons_of_mem first member)
      · rw [List.dropWhile_cons_of_neg passes]

end Beginning

/-! ## Insertions -/

section Insertion

variable {Node : Type u} {nodes : List Node} {node : Node} {test : Node → Bool}

/-- Put a node in front of the first one that passes the test. -/
def insertInFront (test : Node → Bool) (node : Node) : List Node → List Node
  | [] => [node]
  | first :: rest =>
      if test first then
        node :: first :: rest
      else
        first :: insertInFront test node rest

theorem perm_insertInFront :
    (insertInFront test node nodes).Perm (node :: nodes) := by
  induction nodes with
  | nil =>
      exact .refl _
  | cons first rest inductionHypothesis =>
      unfold insertInFront
      split
      · exact .refl _
      · exact (inductionHypothesis.cons first).trans (.swap node first rest)

/-- The relation need not be transitive: it has to hold between the new node
and those behind the first that passes. -/
theorem pairwise_insertInFront {mayPrecede : Node → Node → Prop}
    (sorted : nodes.Pairwise mayPrecede)
    (front : ∀ other ∈ nodes, test other = false → mayPrecede other node)
    (passed : ∀ other ∈ nodes, test other = true → mayPrecede node other)
    (behind : ∀ first ∈ nodes, ∀ other ∈ nodes, test first = true →
      mayPrecede first other → mayPrecede node other) :
    (insertInFront test node nodes).Pairwise mayPrecede := by
  induction nodes with
  | nil =>
      exact List.pairwise_singleton _ _
  | cons first rest inductionHypothesis =>
      obtain ⟨fromFirst, restSorted⟩ := List.pairwise_cons.mp sorted
      have isFirst : first ∈ first :: rest := List.mem_cons_self
      have inRest : ∀ other ∈ rest, other ∈ first :: rest :=
        fun other member => List.mem_cons_of_mem first member
      unfold insertInFront
      split
      · rename_i passes
        refine List.pairwise_cons.mpr ⟨fun other member => ?_, sorted⟩
        rcases List.mem_cons.mp member with rfl | member
        · exact passed other isFirst passes
        · exact behind first isFirst other (inRest other member) passes
            (fromFirst other member)
      · rename_i fails
        refine List.pairwise_cons.mpr ⟨fun other member => ?_, ?_⟩
        · rcases List.mem_cons.mp (perm_insertInFront.mem_iff.mp member) with
            rfl | member
          · exact front first isFirst (eq_false_of_ne_true fails)
          · exact fromFirst other member
        · apply inductionHypothesis restSorted
          · exact fun other member => front other (inRest other member)
          · exact fun other member => passed other (inRest other member)
          · exact fun passing member other otherMember =>
              behind passing (inRest passing member) other
                (inRest other otherMember)

end Insertion

/-! ## Lexicographic order -/

section Lexicographic

variable {Letter : Type u} {cmp : Letter → Letter → Ordering}
  [Std.TransCmp cmp] [Std.LawfulEqCmp cmp] {stem first second : List Letter}

omit [Std.LawfulEqCmp cmp] in
theorem ne_of_cmp_lt {letter other : Letter} (less : cmp letter other = .lt) :
    letter ≠ other := by
  intro same
  have self : cmp letter letter = .eq := Std.ReflCmp.compare_self
  rw [← same, self] at less
  exact Ordering.noConfusion less

theorem isLE_compareLex_cons {letter other : Letter}
    {rest others : List Letter} :
    ((letter :: rest).compareLex cmp (other :: others)).isLE = true ↔
      cmp letter other = .lt ∨
        (letter = other ∧ (rest.compareLex cmp others).isLE = true) := by
  rw [List.compareLex_cons_cons]
  cases order : cmp letter other with
  | lt =>
      simp
  | eq =>
      simp [Std.LawfulEqCmp.eq_of_compare order]
  | gt =>
      have different : letter ≠ other :=
        (ne_of_cmp_lt (Std.OrientedCmp.lt_of_gt order)).symm
      simp [different]

/-- A list stands before those that begin with it. -/
theorem isLE_of_prefix (begins : stem <+: first) :
    (stem.compareLex cmp first).isLE = true := by
  induction stem generalizing first with
  | nil =>
      cases first with
      | nil =>
          rfl
      | cons letter rest =>
          rfl
  | cons letter rest inductionHypothesis =>
      obtain ⟨tail, same⟩ := begins
      rw [← same, List.cons_append, isLE_compareLex_cons]
      exact Or.inr ⟨rfl, inductionHypothesis (List.prefix_append rest tail)⟩

/-- What stands between a list and one that begins with it begins with it. -/
theorem prefix_of_between (above : (stem.compareLex cmp first).isLE = true)
    (below : (first.compareLex cmp second).isLE = true)
    (begins : stem <+: second) : stem <+: first := by
  induction stem generalizing first second with
  | nil =>
      exact List.nil_prefix
  | cons letter rest inductionHypothesis =>
      obtain ⟨tail, same⟩ := begins
      rw [← same] at below
      cases first with
      | nil =>
          exact absurd above Bool.false_ne_true
      | cons other others =>
          rw [List.cons_append, isLE_compareLex_cons] at below
          rw [isLE_compareLex_cons] at above
          have equal : letter = other ∧
              (rest.compareLex cmp others).isLE = true ∧
                (others.compareLex cmp (rest ++ tail)).isLE = true := by
            cases above with
            | inl less =>
                cases below with
                | inl greater =>
                    exact absurd greater (Std.OrientedCmp.not_lt_of_lt less)
                | inr equal =>
                    exact absurd equal.1.symm (ne_of_cmp_lt less)
            | inr equal =>
                cases below with
                | inl less =>
                    exact absurd equal.1.symm (ne_of_cmp_lt less)
                | inr alsoEqual =>
                    exact ⟨equal.1, equal.2, alsoEqual.2⟩
          rw [equal.1, List.cons_prefix_cons]
          exact ⟨rfl, inductionHypothesis equal.2.1 equal.2.2
            (List.prefix_append rest tail)⟩

variable [DecidableEq Letter]

/-- How many letters two lists have in common at their beginnings. -/
def commonLength : List Letter → List Letter → Nat
  | letter :: rest, other :: others =>
      if letter = other then commonLength rest others + 1 else 0
  | _, _ => 0

omit [Std.TransCmp cmp] [Std.LawfulEqCmp cmp] in
theorem commonLength_eq_length :
    commonLength first stem = stem.length ↔ stem <+: first := by
  induction stem generalizing first with
  | nil =>
      cases first with
      | nil =>
          simp [commonLength]
      | cons letter rest =>
          simp [commonLength]
  | cons letter rest inductionHypothesis =>
      cases first with
      | nil =>
          simp [commonLength]
      | cons other others =>
          rw [commonLength, List.cons_prefix_cons]
          split
          · rename_i same
            simp [same, inductionHypothesis]
          · rename_i different
            simp [Ne.symm different]

/-- Towards a list the common beginnings grow. -/
theorem commonLength_mono {word : List Letter}
    (step : (first.compareLex cmp second).isLE = true)
    (below : (second.compareLex cmp word).isLE = true) :
    commonLength word first ≤ commonLength word second := by
  induction word generalizing first second with
  | nil =>
      rw [commonLength]
      · exact Nat.zero_le _
      · intro letter rest _ _ isNil
        exact absurd isNil (List.cons_ne_nil letter rest).symm
  | cons letter rest inductionHypothesis =>
      cases first with
      | nil =>
          exact Nat.zero_le _
      | cons firstLetter firstRest =>
          cases second with
          | nil =>
              exact absurd step Bool.false_ne_true
          | cons secondLetter secondRest =>
              rw [isLE_compareLex_cons] at step below
              rw [commonLength]
              split
              · rename_i isFirst
                have notLess : ¬ cmp firstLetter secondLetter = .lt := by
                  intro less
                  cases below with
                  | inl alsoLess =>
                      rw [isFirst] at alsoLess
                      exact Std.OrientedCmp.not_lt_of_lt alsoLess less
                  | inr equal =>
                      exact ne_of_cmp_lt less (isFirst.symm.trans equal.1.symm)
                obtain ⟨sameLetter, restStep⟩ := step.resolve_left notLess
                have notBelow : ¬ cmp secondLetter letter = .lt := by
                  intro less
                  exact ne_of_cmp_lt less (sameLetter.symm.trans isFirst.symm)
                obtain ⟨isSecond, restBelow⟩ := below.resolve_left notBelow
                rw [commonLength, if_pos isSecond.symm]
                exact Nat.succ_le_succ (inductionHypothesis restStep restBelow)
              · exact Nat.zero_le _

end Lexicographic

end LibubusJni.Lib
